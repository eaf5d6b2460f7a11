import BoardGame.Proofs.Setup.Checks
import BoardGame.Proofs.Setup.WellFormed

/-!
Building phases. A tally admits the names in a tree of phases when they are new to it and do not repeat,
groups and nested rules included. A tree can be built exactly when its names are admitted, and leaves them
in the tally; so a list of trees can be built exactly when the names in all of them together are admitted.
-/

namespace BoardGame

namespace Rule

mutual

theorem map_id_withDescendants : (r : Rule) → r.withDescendants.map Rule.id = r.ids
  | simple head effects => by rw [withDescendants, ids]; rfl
  | all head children => by
    rw [withDescendants, List.map_cons, map_id_descendants children, ids]
    rfl
  | any head children => by
    rw [withDescendants, List.map_cons, map_id_descendants children, ids]
    rfl

theorem map_id_descendants : (l : List Rule) → (descendants l).map Rule.id = idsOf l
  | [] => rfl
  | r :: rest => by
    rw [descendants, List.map_append, map_id_withDescendants r, map_id_descendants rest, idsOf]

end

end Rule

namespace Blueprint

namespace PhaseTally

variable {t u v : PhaseTally} {phases phases' : List PhaseId} {rules rules' : List RuleId}

/-- Names that are new to a tally and do not repeat. -/
def Admits (t : PhaseTally) (phases : List PhaseId) (rules : List RuleId) : Prop :=
  Fresh t.phases phases ∧ Fresh t.rules rules

/-- A tally that has met some more names, the latest first. -/
def Grows (t u : PhaseTally) (phases : List PhaseId) (rules : List RuleId) : Prop :=
  u.phases = phases.reverse ++ t.phases ∧ u.rules = rules.reverse ++ t.rules

theorem admits_nil : t.Admits [] [] := ⟨fresh_nil, fresh_nil⟩

theorem grows_nil : t.Grows t [] [] := ⟨rfl, rfl⟩

theorem Grows.trans (h : t.Grows u phases rules) (h' : u.Grows v phases' rules') :
    t.Grows v (phases ++ phases') (rules ++ rules') := by
  obtain ⟨hphases, hrules⟩ := h
  obtain ⟨hphases', hrules'⟩ := h'
  constructor
  · rw [hphases', hphases, List.reverse_append, List.append_assoc]
  · rw [hrules', hrules, List.reverse_append, List.append_assoc]

theorem Grows.admits_append_iff (h : t.Grows u phases rules) :
    t.Admits (phases ++ phases') (rules ++ rules') ↔ t.Admits phases rules ∧ u.Admits phases' rules' := by
  unfold Admits
  rw [h.1, h.2, fresh_append_iff, fresh_append_iff]
  constructor
  · rintro ⟨⟨hphases, hphases'⟩, hrules, hrules'⟩
    exact ⟨⟨hphases, hrules⟩, hphases', hrules'⟩
  · rintro ⟨⟨hphases, hrules⟩, hphases', hrules'⟩
    exact ⟨⟨hphases, hphases'⟩, hrules, hrules'⟩

theorem Admits.of_append (h : t.Admits (phases ++ phases') (rules ++ rules')) :
    t.Admits phases rules :=
  ⟨(fresh_append_iff.mp h.1).1, (fresh_append_iff.mp h.2).1⟩

/-- Two steps in a row, each of which succeeds exactly when its names are admitted, succeed exactly when
the names of both are admitted together. -/
theorem exists_step_iff {α : Type} {step next : α → Prop} {tally : α → PhaseTally}
    (hstep : (∃ a, step a) ↔ t.Admits phases rules)
    (hgrows : ∀ a, step a → t.Grows (tally a) phases rules)
    (hnext : ∀ a, next a ↔ (tally a).Admits phases' rules') :
    (∃ a, step a ∧ next a) ↔ t.Admits (phases ++ phases') (rules ++ rules') := by
  constructor
  · rintro ⟨a, ha, hrest⟩
    exact (hgrows a ha).admits_append_iff.mpr ⟨hstep.mp ⟨a, ha⟩, (hnext a).mp hrest⟩
  · intro h
    obtain ⟨a, ha⟩ := hstep.mpr h.of_append
    obtain ⟨-, hrest⟩ := (hgrows a ha).admits_append_iff.mp h
    exact ⟨a, ha, (hnext a).mpr hrest⟩

end PhaseTally

theorem claimPhase_eq_ok_iff {t u : PhaseTally} {id : PhaseId} :
    claimPhase t id = .ok u ↔ t.Admits [id] [] ∧ u = { t with phases := id :: t.phases } := by
  unfold claimPhase PhaseTally.Admits
  rw [fresh_singleton_iff]
  by_cases hid : id ∈ t.phases
  · simp [hid]
  · simp [hid, fresh_nil, eq_comm]

theorem grows_of_claimPhase {t u : PhaseTally} {id : PhaseId} (h : claimPhase t id = .ok u) :
    t.Grows u [id] [] := by
  obtain ⟨-, rfl⟩ := claimPhase_eq_ok_iff.mp h
  exact ⟨rfl, rfl⟩

theorem exists_claimPhase_iff {t : PhaseTally} {id : PhaseId} :
    (∃ u, claimPhase t id = .ok u) ↔ t.Admits [id] [] := by
  simp only [claimPhase_eq_ok_iff, exists_and_left, exists_eq, and_true]

theorem claimRules_eq_ok_iff {seen : List RuleId} {l : List Rule} {claimed : List RuleId} :
    claimRules seen l = .ok claimed ↔
      Fresh seen (l.map Rule.id) ∧ claimed = (l.map Rule.id).reverse ++ seen := by
  induction l generalizing seen with
  | nil => simp [claimRules, fresh_nil, eq_comm]
  | cons r rest ih =>
    rw [claimRules, List.map_cons, fresh_cons_iff]
    by_cases hr : r.id ∈ seen
    · simp [hr]
    · simp [hr, ih]

theorem exists_claimRules_iff {t : PhaseTally} {r : Rule} :
    (∃ claimed, claimRules t.rules r.withDescendants = .ok claimed) ↔ t.Admits [] r.ids := by
  simp only [claimRules_eq_ok_iff, Rule.map_id_withDescendants, exists_and_left, exists_eq,
    and_true, PhaseTally.Admits, fresh_nil, true_and]

mutual

theorem grows_of_buildPhase : (p : PhaseDecl) → ∀ {t : PhaseTally} {built : Phase × PhaseTally},
    buildPhase t p = .ok built → t.Grows built.2 p.ids p.ruleIds
  | .leaf p, t, built, h => by
    simp only [buildPhase, bind_eq_ok_iff, pure, Except.pure, Except.ok.injEq] at h
    obtain ⟨claimed, hclaimed, rules, hrules, rfl⟩ := h
    obtain ⟨hphases, hold⟩ := grows_of_claimPhase hclaimed
    obtain ⟨-, rfl⟩ := claimRules_eq_ok_iff.mp hrules
    refine ⟨hphases, ?_⟩
    rw [hold, Rule.map_id_withDescendants]
    rfl
  | .group id children, t, built, h => by
    simp only [buildPhase, bind_eq_ok_iff, pure, Except.pure, Except.ok.injEq] at h
    obtain ⟨claimed, hclaimed, inner, hinner, rfl⟩ := h
    exact (grows_of_claimPhase hclaimed).trans (grows_of_buildPhases children hinner)

theorem grows_of_buildPhases : (l : List PhaseDecl) →
    ∀ {t : PhaseTally} {built : List Phase × PhaseTally},
    buildPhases t l = .ok built → t.Grows built.2 (PhaseDecl.idsOf l) (PhaseDecl.ruleIdsOf l)
  | [], t, built, h => by
    obtain rfl := Except.ok.inj h
    exact PhaseTally.grows_nil
  | p :: rest, t, built, h => by
    simp only [buildPhases, bind_eq_ok_iff, pure, Except.pure, Except.ok.injEq] at h
    obtain ⟨first, hfirst, others, hothers, rfl⟩ := h
    have hrest := grows_of_buildPhases rest hothers
    exact (grows_of_buildPhase p hfirst).trans hrest

end

mutual

theorem exists_buildPhase_iff : (p : PhaseDecl) → ∀ {t : PhaseTally},
    (∃ built, buildPhase t p = .ok built) ↔ t.Admits p.ids p.ruleIds
  | .leaf p, t => by
    simp only [buildPhase, exists_bind_iff, exists_pure_iff, and_true]
    apply PhaseTally.exists_step_iff exists_claimPhase_iff
    · intro claimed hclaimed
      exact grows_of_claimPhase hclaimed
    · intro claimed
      exact exists_claimRules_iff
  | .group id children, t => by
    simp only [buildPhase, exists_bind_iff, exists_pure_iff, and_true]
    apply PhaseTally.exists_step_iff exists_claimPhase_iff
    · intro claimed hclaimed
      exact grows_of_claimPhase hclaimed
    · intro claimed
      exact exists_buildPhases_iff children

theorem exists_buildPhases_iff : (l : List PhaseDecl) → ∀ {t : PhaseTally},
    (∃ built, buildPhases t l = .ok built) ↔
      t.Admits (PhaseDecl.idsOf l) (PhaseDecl.ruleIdsOf l)
  | [], t => by
    rw [buildPhases, exists_pure_iff]
    exact iff_of_true trivial PhaseTally.admits_nil
  | p :: rest, t => by
    simp only [buildPhases, exists_bind_iff, exists_pure_iff, and_true]
    apply PhaseTally.exists_step_iff (exists_buildPhase_iff p)
    · intro first hfirst
      exact grows_of_buildPhase p hfirst
    · intro first
      exact exists_buildPhases_iff rest

end

/-- The tree of all phases can be built when no two phases and no two rules share a name, and no phase has
the name of the tree itself. -/
theorem exists_buildRoot_iff {b : Blueprint} :
    (∃ root, b.buildRoot = .ok root) ↔
      (PhaseDecl.idsOf b.phases).Nodup ∧ rootName ∉ PhaseDecl.idsOf b.phases ∧
        (PhaseDecl.ruleIdsOf b.phases).Nodup := by
  simp only [buildRoot, exists_bind_iff, exists_pure_iff, and_true, exists_buildPhases_iff]
  unfold PhaseTally.Admits
  rw [fresh_of_one_seen_iff, fresh_of_nothing_seen_iff, and_assoc]

end Blueprint

end BoardGame
