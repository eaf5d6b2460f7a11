import BoardGame.Proofs.Engine.TreeWalk
import BoardGame.Proofs.Rule.Performance

/-!
Where an applied event comes from. Whether an engine follows an agenda or walks its tree, and whatever its
strategy, the rules that it carries out are rules of its leaves, and each of them was valid on the snapshot
with which handling the event began. The order and the number in which they are carried out are left open
here.
-/

namespace BoardGame

namespace Engine

variable {e : Engine} {s t : Snapshot} {event : Event} {p : LeafPhase} {c : Candidate}
  {decision : Decision}

theorem mem_candidates_record {scan : Scan} {v : Verdict} (h : c ∈ (scan.record p v).candidates) :
    c ∈ scan.candidates ∨ v.isValid = true ∧ c = Candidate.ofLeaf p := by
  cases hv : v.outcome with
  | valid =>
    simp only [Scan.record, hv, List.mem_append, List.mem_singleton] at h
    exact h.imp_right fun hc => ⟨decide_eq_true hv, hc⟩
  | invalid =>
    simp only [Scan.record, hv] at h
    exact Or.inl h
  | ignore =>
    simp only [Scan.record, hv] at h
    exact Or.inl h

/-- The leaves whose rules are valid, whether or not they apply. -/
def validLeaves (e : Engine) (s : Snapshot) (event : Event) : List LeafPhase :=
  e.phases.leaves.filter fun p => (e.answer s event p).isValid

theorem mem_candidates_foldl_scanLeaf {l : List LeafPhase} {scan : Scan}
    (h : c ∈ (l.foldl (e.scanLeaf s event) scan).candidates) :
    c ∈ scan.candidates ∨
      c ∈ (l.filter fun p => (e.answer s event p).isValid).map Candidate.ofLeaf := by
  induction l generalizing scan with
  | nil => exact Or.inl h
  | cons p rest ih =>
    have hrest : rest.filter (fun p => (e.answer s event p).isValid) ⊆
        (p :: rest).filter fun p => (e.answer s event p).isValid :=
      List.filter_subset _ (List.subset_cons_self p rest)
    rcases ih h with hscan | hlater
    · rw [scanLeaf] at hscan
      split at hscan
      · rcases mem_candidates_record hscan with hold | ⟨hvalid, rfl⟩
        · exact Or.inl hold
        · exact Or.inr (List.mem_map_of_mem (List.mem_filter.mpr ⟨List.mem_cons_self .., hvalid⟩))
      · exact Or.inl hscan
    · exact Or.inr (List.map_subset _ hrest hlater)

theorem mem_candidates_scan (h : e.agenda = none ∨ e.Planned)
    (hc : c ∈ (e.scan s event).value.candidates) :
    c ∈ (e.validLeaves s event).map Candidate.ofLeaf := by
  rcases h with hwalk | hplanned
  · rw [value_scan_of_walk hwalk] at hc
    refine List.map_subset _ (List.filter_subset _ ?_) hc
    exact List.Subset.trans (List.take_subset 1 _) (List.filter_subset_self _)
  · rw [hplanned.value_scan] at hc
    rcases mem_candidates_foldl_scanLeaf hc with hnone | hvalid
    · cases hnone
    · exact hvalid

theorem conclude_of_no_candidates {scan : Scan} (hnone : scan.candidates = []) :
    e.conclude s event scan = .ok .ignored ∨ ∃ r, e.conclude s event scan = .error (.rejected r) := by
  unfold conclude
  rw [hnone]
  cases scan.rejection with
  | none => exact Or.inl rfl
  | some found => exact Or.inr ⟨_, rfl⟩

theorem select_of_applied
    (happlied : (e.evaluate s event).value = .ok (.applied t decision)) :
    e.config.strategy.select (e.scan s event).value.candidates = .ok decision ∧
      t = decision.selected.foldl (fun s c => (e.perform event s c).value) s := by
  rw [value_evaluate] at happlied
  generalize (e.scan s event).value = scan at happlied
  have hsome : scan.candidates ≠ [] := by
    intro hnone
    rcases conclude_of_no_candidates (e := e) (s := s) hnone with hend | ⟨r, hend⟩ <;>
      rw [hend] at happlied <;> cases happlied
  rw [conclude_of_candidates hsome, resolve] at happlied
  cases hselect : e.config.strategy.select scan.candidates with
  | error conflict =>
    rw [hselect] at happlied
    cases happlied
  | ok selected =>
    rw [hselect] at happlied
    cases happlied
    exact ⟨rfl, rfl⟩

theorem select_of_conflict {k : Conflict}
    (hconflict : (e.evaluate s event).value = .error (.conflict k)) :
    ∃ rivals, e.config.strategy.select (e.scan s event).value.candidates = .error rivals ∧
      k = { event, rules := rivals.map Candidate.rule, phases := rivals.map Candidate.phase } := by
  rw [value_evaluate] at hconflict
  generalize (e.scan s event).value = scan at hconflict
  have hsome : scan.candidates ≠ [] := by
    intro hnone
    rcases conclude_of_no_candidates (e := e) (s := s) hnone with hend | ⟨r, hend⟩ <;>
      rw [hend] at hconflict <;> cases hconflict
  rw [conclude_of_candidates hsome, resolve] at hconflict
  cases hselect : e.config.strategy.select scan.candidates with
  | error rivals =>
    rw [hselect] at hconflict
    cases hconflict
    exact ⟨rivals, rfl, rfl⟩
  | ok selected =>
    rw [hselect] at hconflict
    cases hconflict

def carriedOut (e : Engine) (d : Decision) : List LeafPhase :=
  d.selected.filterMap fun c => e.leaves[c.position]?

theorem mem_leaves_of_mem_carriedOut {d : Decision} (hp : p ∈ e.carriedOut d) : p ∈ e.leaves := by
  obtain ⟨c, -, hc⟩ := List.mem_filterMap.mp hp
  exact List.mem_of_getElem? hc

/-- A candidate whose position names no leaf is passed over. -/
theorem foldl_perform_selected (d : Decision) (s : Snapshot) :
    d.selected.foldl (fun s c => (e.perform event s c).value) s =
      (e.carriedOut d).foldl (e.after event) s := by
  rw [carriedOut, List.foldl_filterMap]
  apply List.foldl_ext
  intro s c _
  rw [perform]
  cases e.leaves[c.position]? with
  | none => rfl
  | some p => rfl

theorem LaidOut.carriedOut_eq (h : e.LaidOut) {chosen : List LeafPhase}
    (hselected : decision.selected = chosen.map Candidate.ofLeaf)
    (hchosen : ∀ p ∈ chosen, p ∈ e.phases.leaves) : e.carriedOut decision = chosen := by
  rw [carriedOut, hselected, List.filterMap_map]
  refine (List.filterMap_congr fun p hp => ?_).trans List.filterMap_some
  exact h.numbered.getElem?_ordinal (h.leaves_eq ▸ hchosen p hp)

theorem map_ofLeaf_carriedOut (h : e.agenda = none ∨ e.Planned) (hleaves : e.LaidOut)
    (happlied : (e.evaluate s event).value = .ok (.applied t decision)) :
    (e.carriedOut decision).map Candidate.ofLeaf = decision.selected ∧
      ∀ p ∈ e.carriedOut decision, p ∈ e.validLeaves s event := by
  obtain ⟨hselect, -⟩ := select_of_applied happlied
  obtain ⟨chosen, hchosen, hvalid⟩ := exists_map_ofLeaf fun c hc =>
    mem_candidates_scan h (Strategy.mem_of_mem_select hselect hc)
  have hcarried : e.carriedOut decision = chosen :=
    hleaves.carriedOut_eq hchosen fun p hp => (List.mem_filter.mp (hvalid p hp)).1
  rw [hcarried]
  exact ⟨hchosen.symm, hvalid⟩

/-- An event is applied by carrying out rules that were all valid to begin with. -/
theorem exists_chosen_of_applied (h : e.agenda = none ∨ e.Planned) (hleaves : e.LaidOut)
    (happlied : (e.evaluate s event).value = .ok (.applied t decision)) :
    ∃ chosen : List LeafPhase, (∀ p ∈ chosen, p ∈ e.validLeaves s event) ∧
      t = chosen.foldl (e.after event) s := by
  refine ⟨e.carriedOut decision, (map_ofLeaf_carriedOut h hleaves happlied).2, ?_⟩
  rw [← foldl_perform_selected]
  exact (select_of_applied happlied).2

/-- The effects that carrying out a decision runs, in order, whichever rules they belong to. -/
def performed (e : Engine) (event : Event) (s : Snapshot) (d : Decision) : List Effect :=
  Rule.performedAll e.setting event ((e.carriedOut d).map LeafPhase.rule) s

theorem runAll_performed (happlied : (e.evaluate s event).value = .ok (.applied t decision)) :
    t = Effect.runAll e.setting event (e.performed event s decision) s := by
  have hafter : (e.carriedOut decision).foldl (e.after event) s =
      ((e.carriedOut decision).map LeafPhase.rule).foldl
        (fun s r => (r.apply e.setting event s).value) s := by
    rw [List.foldl_map]
    rfl
  rw [(select_of_applied happlied).2, foldl_perform_selected, hafter, Rule.foldl_apply,
    Rule.value_applyAll]
  rfl

theorem forall_mem_performed {P : Effect → Prop} (h : ∀ p ∈ e.leaves, p.rule.EveryEffect P) :
    ∀ f ∈ e.performed event s decision, P f :=
  Rule.forall_mem_performedAll s <|
    List.forall_mem_map.mpr fun p hp => (h p (mem_leaves_of_mem_carriedOut hp)).performed

end Engine

namespace Blueprint

variable {b : Blueprint} {start : Session}

theorem laidOut_of_build (h : b.build = .ok start) : start.engine.LaidOut := by
  obtain ⟨game, snapshot, phases, -, -, hroot, rfl⟩ := build_eq_ok_iff.mp h
  exact ⟨rfl, numbered_of_buildRoot hroot⟩

theorem scans_of_build (h : b.build = .ok start) :
    start.engine.agenda = none ∨ start.engine.Planned := by
  by_cases hagenda : b.config.useAgenda = true
  · exact Or.inr (planned_of_build h hagenda)
  · obtain ⟨game, snapshot, phases, -, -, -, rfl⟩ := build_eq_ok_iff.mp h
    exact Or.inl (if_neg hagenda)

end Blueprint

end BoardGame
