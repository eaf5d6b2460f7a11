import BoardGame.Proofs.Engine.Applied
import BoardGame.Proofs.Rule.Opposition
import BoardGame.Proofs.Setup.Layout
import BoardGame.Proofs.Setup.Start
import Mathlib.Data.List.Flatten

/-!
Quiet and capturing moves exclude each other. One of their tests wants the target of a move empty and the
other wants an opponent on it, and neither withholds its opinion where the other accepts. So a rule that
demands the one and a rule that demands the other are never valid together, and where only one rule may be
valid the two are never what is in conflict.
-/

namespace BoardGame

namespace Guard

variable {α ν : Type} {a : α} {g : Guard α} {judge : α → Noted ν Verdict}

/-- A guard that is a test, or a conjunction with a member that demands the test. -/
inductive Demands (a : α) : Guard α → Prop
  | test : Demands a (.test a)
  | all {g children} (hg : g ∈ children) (h : Demands a g) : Demands a (.all children)

theorem Demands.isValid (h : g.Demands a) (hvalid : (run judge g).value.isValid = true) :
    (judge a).value.isValid = true := by
  induction h with
  | test => exact hvalid
  | all hg h ih =>
    rw [value_run_all, Verdict.isValid_all_iff, List.forall_mem_map] at hvalid
    exact ih (hvalid _ hg)

end Guard

namespace Rule

variable {r : Rule} {t : EventTest} {c : Setting} {s : Snapshot} {e : Event}

theorem permits_of_isValid_check (h : (r.check c s e).value.isValid = true) : r.head.Permits c s e := by
  cases r with
  | simple head effects => exact (isValid_check_simple.mp h).2
  | all head children => exact (isValid_check_all.mp h).2.1
  | any head children => exact (isValid_check_any.mp h).2.1

theorem isValid_judge_of_demands (hdemands : r.guard.Demands t)
    (h : (r.check c s e).value.isValid = true) : (t.judge c s e).isValid = true := by
  have hguard : (Guard.run (EventTest.ask c s e) r.guard).value.isValid = true :=
    permits_of_isValid_check h
  exact hdemands.isValid hguard

end Rule

theorem Snapshot.Indexed.met_of_away {s : Snapshot} {m : Move} (hs : s.Indexed)
    (haway : s.tileOf? m.piece ≠ some m.target) : s.met m = s.piecesOn m.target := by
  rw [Snapshot.met, List.filter_eq_self]
  intro p hp
  refine decide_eq_true fun hsame => haway ?_
  rw [← hsame]
  exact hs.mem_piecesOn_iff.mp hp

namespace EventTest

variable {c : Setting} {s : Snapshot} {m : Move}

theorem judge_targetEmpty (c : Setting) (s : Snapshot) (m : Move) : targetEmpty.judge c s (.move m) =
    if s.piecesOn m.target = [] then .valid else .fail (m.target ++ " is occupied") := by
  have hunfold : targetEmpty.judge c s (.move m) =
      .check (!s.isOccupied m.target) (m.target ++ " is occupied") := rfl
  rw [hunfold]
  by_cases hempty : s.piecesOn m.target = []
  · have hfree : s.isOccupied m.target = false := by
      rw [Bool.eq_false_iff, Ne, Snapshot.isOccupied_iff, not_not]
      exact hempty
    rw [hfree, if_pos hempty]
    rfl
  · rw [Snapshot.isOccupied_iff.mpr hempty, if_neg hempty]
    rfl

theorem not_both_valid (c : Setting) (s : Snapshot) (event : Event) :
    ¬ ((targetEmpty.judge c s event).isValid = true ∧
      (targetOpposed.judge c s event).isValid = true) := by
  rintro ⟨hempty, hopposed⟩
  cases event with
  | move m =>
    obtain ⟨p, hp, -⟩ := MoveTest.isValid_targetOpposed_iff.mp hopposed
    have hoccupied : s.piecesOn m.target ≠ [] := List.ne_nil_of_mem (List.mem_filter.mp hp).1
    rw [judge_targetEmpty, if_neg hoccupied] at hempty
    cases hempty
  | _ => cases hempty

/-- The target is empty, or holds an opponent, or holds none but pieces of the moving side. -/
theorem target_cases (c : Setting) (hs : s.Indexed) (haway : s.tileOf? m.piece ≠ some m.target) :
    let answers := ((targetEmpty.judge c s (.move m)).outcome,
      (targetOpposed.judge c s (.move m)).outcome)
    answers = (.valid, .ignore) ∨ answers = (.invalid, .valid) ∨ answers = (.invalid, .invalid) := by
  intro answers
  have hanswers : answers = ((targetEmpty.judge c s (.move m)).outcome,
      (MoveTest.targetOpposed c s m).outcome) := rfl
  rw [hanswers, judge_targetEmpty]
  rcases MoveTest.targetOpposed_cases c s m with
    ⟨hnone, hverdict⟩ | ⟨⟨p, hp, -⟩, hverdict⟩ | ⟨hsome, -, hverdict⟩
  · rw [hs.met_of_away haway] at hnone
    rw [if_pos hnone, hverdict]
    exact Or.inl rfl
  · have hsome := List.ne_nil_of_mem hp
    rw [hs.met_of_away haway] at hsome
    rw [if_neg hsome, hverdict]
    exact Or.inr (Or.inl rfl)
  · rw [hs.met_of_away haway] at hsome
    rw [if_neg hsome, hverdict]
    exact Or.inr (Or.inr rfl)

end EventTest

namespace Engine

variable {e : Engine} {s : Snapshot} {event : Event}

theorem exists_rivals_of_conflict (h : e.agenda = none ∨ e.Planned) {k : Conflict}
    (hconflict : (e.evaluate s event).value = .error (.conflict k)) :
    ∃ rivals : List LeafPhase, (∀ p ∈ rivals, p ∈ e.validLeaves s event) ∧
      k.rules = rivals.map (fun p => p.rule.id) ∧ k.phases = rivals.map LeafPhase.id := by
  obtain ⟨found, hselect, rfl⟩ := select_of_conflict hconflict
  obtain ⟨-, -, rfl⟩ := Strategy.select_eq_error_iff.mp hselect
  obtain ⟨rivals, hrivals, hvalid⟩ := exists_map_ofLeaf fun c hc => mem_candidates_scan h hc
  rw [hrivals, List.map_map, List.map_map]
  exact ⟨rivals, hvalid, rfl, rfl⟩

/-- A leaf that is named among valid ones, by something that tells leaves apart, has a valid rule. -/
theorem isValid_of_mem_map {β : Type} {f : LeafPhase → β} {p : LeafPhase} {l : List LeafPhase}
    (hdistinct : (e.phases.leaves.map f).Nodup) (hp : p ∈ e.phases.leaves)
    (hl : ∀ q ∈ l, q ∈ e.validLeaves s event) (hnamed : f p ∈ l.map f) :
    (p.rule.check e.setting s event).value.isValid = true := by
  obtain ⟨q, hq, hsame⟩ := List.mem_map.mp hnamed
  obtain ⟨hleaf, hvalid⟩ := List.mem_filter.mp (hl q hq)
  rw [← List.inj_on_of_nodup_map hdistinct hleaf hp hsame]
  exact hvalid

end Engine

namespace Phase

mutual

theorem map_id_leaves_sublist : (p : Phase) → (p.leaves.map LeafPhase.id).Sublist p.ids
  | .leaf _ => List.Sublist.refl _
  | .group _ children => (map_id_leavesOf_sublist children).cons _

theorem map_id_leavesOf_sublist : (l : List Phase) →
    ((leavesOf l).map LeafPhase.id).Sublist (idsOf l)
  | [] => List.Sublist.refl _
  | p :: rest => by
    rw [leavesOf, List.map_append, idsOf]
    exact (map_id_leaves_sublist p).append (map_id_leavesOf_sublist rest)

end

end Phase

namespace Blueprint

variable {b : Blueprint} {start : Session}

theorem leafIds_nodup_of_build (h : b.build = .ok start) :
    (start.engine.phases.leaves.map LeafPhase.id).Nodup :=
  (names_nodup_of_build h).1.sublist (Phase.map_id_leaves_sublist _)

theorem ruleIds_nodup_of_build (h : b.build = .ok start) :
    (start.engine.phases.leaves.map fun p => p.rule.id).Nodup := by
  have hown : ∀ r : Rule, [r.id].Sublist r.ids := by
    intro r
    cases r with
    | simple | all | any => exact List.singleton_sublist.mpr (List.mem_cons_self ..)
  refine (names_nodup_of_build h).2.sublist ?_
  rw [List.map_eq_flatMap]
  exact List.Sublist.flatMap_right _ fun p _ => hown p.rule

/-- A rule that demands an empty target and one that demands an opponent on the target are never valid for
the same event, however deep their conjunctions hold the two tests, for the tests themselves never are. So
no conflict names both of them, nor both of their phases. Where the moving piece is not already on the
target, the answers to the two tests are one of three pairs: the target is empty, or an opponent stands on
it, or only the moving side does. -/
theorem quiet_excludes_capturing (hbuild : b.build = .ok start) (seed : UInt64) (edits : List Edit) :
    let c := start.engine.setting
    let s := (Snapshot.seeded seed).editAll edits
    (∀ event, ¬ ((EventTest.targetEmpty.judge c s event).isValid = true ∧
      (EventTest.targetOpposed.judge c s event).isValid = true)) ∧
    (∀ quiet capturing : Rule, quiet.guard.Demands .targetEmpty →
      capturing.guard.Demands .targetOpposed → ∀ event,
        ¬ ((quiet.check c s event).value.isValid = true ∧
          (capturing.check c s event).value.isValid = true)) ∧
    (∀ p ∈ start.engine.leaves, ∀ q ∈ start.engine.leaves,
      p.rule.guard.Demands .targetEmpty → q.rule.guard.Demands .targetOpposed →
      ∀ (session : Session) (call : Nat) (event : Event) (k : Conflict),
        session.engine = start.engine → session.snapshot = s →
        (session.handle call event).value = .error (.conflict k) →
        ¬ (p.rule.id ∈ k.rules ∧ q.rule.id ∈ k.rules) ∧ ¬ (p.id ∈ k.phases ∧ q.id ∈ k.phases)) ∧
    ∀ m : Move, s.tileOf? m.piece ≠ some m.target →
      ∃! answers, answers ∈ [(Outcome.valid, Outcome.ignore), (.invalid, .valid), (.invalid, .invalid)] ∧
        ((EventTest.targetEmpty.judge c s (.move m)).outcome,
          (EventTest.targetOpposed.judge c s (.move m)).outcome) = answers := by
  intro c s
  have hrules : ∀ quiet capturing : Rule, quiet.guard.Demands .targetEmpty →
      capturing.guard.Demands .targetOpposed → ∀ event,
        ¬ ((quiet.check c s event).value.isValid = true ∧
          (capturing.check c s event).value.isValid = true) := by
    rintro quiet capturing hquiet hcapturing event ⟨hvalid, hvalid'⟩
    exact EventTest.not_both_valid c s event
      ⟨Rule.isValid_judge_of_demands hquiet hvalid, Rule.isValid_judge_of_demands hcapturing hvalid'⟩
  refine ⟨EventTest.not_both_valid c s, hrules, ?_, ?_⟩
  · intro p hp q hq hquiet hcapturing session call event k hengine hsnapshot hfailed
    have hconflict : (start.engine.evaluate s event).value = .error (.conflict k) := by
      rw [Session.value_handle, hengine, hsnapshot] at hfailed
      split at hfailed <;> cases hfailed
      assumption
    obtain ⟨rivals, hrivals, hids, hphases⟩ :=
      Engine.exists_rivals_of_conflict (scans_of_build hbuild) hconflict
    rw [(laidOut_of_build hbuild).leaves_eq] at hp hq
    have hapart : ∀ f : LeafPhase → String, (start.engine.phases.leaves.map f).Nodup →
        ¬ (f p ∈ rivals.map f ∧ f q ∈ rivals.map f) := by
      rintro f hdistinct ⟨hpnamed, hqnamed⟩
      exact hrules p.rule q.rule hquiet hcapturing event
        ⟨Engine.isValid_of_mem_map hdistinct hp hrivals hpnamed,
          Engine.isValid_of_mem_map hdistinct hq hrivals hqnamed⟩
    rw [hids, hphases]
    exact ⟨hapart _ (ruleIds_nodup_of_build hbuild), hapart _ (leafIds_nodup_of_build hbuild)⟩
  · intro m haway
    have hcases := EventTest.target_cases c ((Snapshot.indexed_seeded seed).editAll edits) haway
    refine ⟨_, ⟨?_, rfl⟩, ?_⟩
    · simpa using hcases
    · rintro _ ⟨-, rfl⟩
      rfl

/-- A step onto an empty tile, a capture, and a third phase that takes any move, where one may accept. -/
def standoff : Blueprint :=
  { melee with
    phases := [
      .leaf {
        id := "marching"
        rule := .simple
          { id := "march", type := some .move, guard := .all [.test .onSource, .all [.test .targetEmpty]] }
          [.movePiece] },
      .leaf { id := "storming", rule := Rule.storm },
      .leaf {
        id := "drifting"
        rule := .simple { id := "drift", type := some .move, guard := .test .onSource } [.movePiece] }]
    config := { strategy := .exclusive } }

/-- The third phase is in conflict with the capture; the step is not. -/
theorem standoff_conflict : ∃ start k, standoff.build = .ok start ∧
    start.snapshot.tileOf? charge.piece ≠ some charge.target ∧
    (start.handle 1 (.move charge)).value = .error (.conflict k) ∧ k.rules = ["storm", "drift"] ∧
    (∃ p ∈ start.engine.leaves, ∃ q ∈ start.engine.leaves, p.id = "marching" ∧ q.id = "storming" ∧
      p.rule.guard.Demands .targetEmpty ∧ q.rule.guard.Demands .targetOpposed ∧
      ¬ (p.rule.id ∈ k.rules ∧ q.rule.id ∈ k.rules)) ∧
    (EventTest.targetEmpty.judge start.engine.setting start.snapshot (.move charge)).outcome = .invalid ∧
    (EventTest.targetOpposed.judge start.engine.setting start.snapshot (.move charge)).outcome = .valid := by
  have hrun : ∃ start k march storm drift, standoff.build = .ok start ∧
      start.engine.leaves = [march, storm, drift] ∧ march.id = "marching" ∧ storm.id = "storming" ∧
      march.rule.guard = .all [.test .onSource, .all [.test .targetEmpty]] ∧
      storm.rule.guard = .all [.test .onSource, .test .targetOpposed] ∧
      (start.handle 1 (.move charge)).value = .error (.conflict k) ∧ k.rules = ["storm", "drift"] ∧
      start.snapshot.tileOf? charge.piece ≠ some charge.target ∧
      (EventTest.targetOpposed.judge start.engine.setting start.snapshot (.move charge)).outcome =
        .valid :=
    ⟨_, _, _, _, _, rfl, rfl, rfl, rfl, rfl, rfl, rfl, rfl, by decide +kernel, by decide +kernel⟩
  obtain ⟨start, k, march, storm, drift, hbuild, hleaves, hmarching, hstorming, hmarch, hstorm, hconflict,
    hnamed, haway, hopposed⟩ := hrun
  obtain ⟨seed, edits, hsnapshot⟩ := exists_editAll_of_build hbuild
  have hquiet : march.rule.guard.Demands .targetEmpty := by
    rw [hmarch]
    exact .all (List.mem_cons_of_mem _ List.mem_cons_self) (.all List.mem_cons_self .test)
  have hcapturing : storm.rule.guard.Demands .targetOpposed := by
    rw [hstorm]
    exact .all (List.mem_cons_of_mem _ List.mem_cons_self) .test
  have hp : march ∈ start.engine.leaves := hleaves ▸ List.mem_cons_self
  have hq : storm ∈ start.engine.leaves := hleaves ▸ List.mem_cons_of_mem _ List.mem_cons_self
  obtain ⟨-, -, hapart, hcases⟩ := quiet_excludes_capturing hbuild seed edits
  rw [← hsnapshot] at hcases
  obtain ⟨answers, ⟨hmem, hanswers⟩, -⟩ := hcases charge haway
  refine ⟨start, k, hbuild, haway, hconflict, hnamed, ⟨march, hp, storm, hq, hmarching, hstorming, hquiet,
    hcapturing, ?_⟩, ?_, hopposed⟩
  · exact (hapart march hp storm hq hquiet hcapturing start 1 (.move charge) k rfl hsnapshot hconflict).1
  · rw [← hanswers, hopposed] at hmem
    simpa using hmem

end Blueprint

end BoardGame
