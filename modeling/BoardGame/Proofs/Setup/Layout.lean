import BoardGame.Proofs.Phase.Agenda
import BoardGame.Proofs.Setup.Engine

/-!
The phases of a built game. A built phase is its declaration with ordinals added to the leaves: taking the
ordinals away again gives the declared tree. The leaves, the agenda and the positions in candidates are
three numberings of the same leaves, made by traversals of their own, and they are one and the same.
-/

namespace BoardGame

/-- What was declared of a leaf: all of it but the ordinal. -/
def LeafPhase.decl (p : LeafPhase) : LeafDecl := ⟨p.id, p.guard, p.rule⟩

namespace Phase

mutual

def decl : Phase → PhaseDecl
  | leaf p => .leaf p.decl
  | group id children => .group id (declsOf children)

def declsOf : List Phase → List PhaseDecl
  | [] => []
  | p :: rest => decl p :: declsOf rest

end

end Phase

namespace PhaseDecl

mutual

def leaves : PhaseDecl → List LeafDecl
  | leaf p => [p]
  | group _ children => leavesOf children

def leavesOf : List PhaseDecl → List LeafDecl
  | [] => []
  | p :: rest => leaves p ++ leavesOf rest

end

end PhaseDecl

namespace Phase

mutual

theorem map_decl_leaves : (p : Phase) → p.leaves.map LeafPhase.decl = p.decl.leaves
  | .leaf _ => rfl
  | .group _ children => map_decl_leavesOf children

theorem map_decl_leavesOf : (l : List Phase) →
    (leavesOf l).map LeafPhase.decl = PhaseDecl.leavesOf (declsOf l)
  | [] => rfl
  | p :: rest => by
    rw [leavesOf, List.map_append, map_decl_leaves p, map_decl_leavesOf rest, declsOf,
      PhaseDecl.leavesOf]

end

mutual

theorem ids_decl : (p : Phase) → p.decl.ids = p.ids
  | .leaf _ => rfl
  | .group _ children => by
    rw [decl, PhaseDecl.ids, idsOf_declsOf children, ids]

theorem idsOf_declsOf : (l : List Phase) → PhaseDecl.idsOf (declsOf l) = idsOf l
  | [] => rfl
  | p :: rest => by
    rw [declsOf, PhaseDecl.idsOf, ids_decl p, idsOf_declsOf rest, idsOf]

end

end Phase

namespace PhaseDecl

mutual

theorem ruleIds_eq_flatMap : (p : PhaseDecl) → p.ruleIds = p.leaves.flatMap fun q => q.rule.ids
  | .leaf q => by
    rw [ruleIds, leaves, List.flatMap_singleton]
  | .group _ children => ruleIdsOf_eq_flatMap children

theorem ruleIdsOf_eq_flatMap : (l : List PhaseDecl) →
    ruleIdsOf l = (leavesOf l).flatMap fun q => q.rule.ids
  | [] => rfl
  | p :: rest => by
    rw [ruleIdsOf, leavesOf, List.flatMap_append, ruleIds_eq_flatMap p, ruleIdsOf_eq_flatMap rest]

end

end PhaseDecl

namespace Blueprint

variable {b : Blueprint} {start : Session} {root : Phase}

mutual

/-- Building a phase adds nothing but ordinals and leaves nothing out. -/
theorem decl_of_buildPhase : (p : PhaseDecl) → ∀ {t u : PhaseTally} {q : Phase},
    buildPhase t p = .ok (q, u) → q.decl = p
  | .leaf p, t, u, q, h => by
    simp only [buildPhase, bind_eq_ok_iff, pure, Except.pure, Except.ok.injEq, Prod.mk.injEq] at h
    obtain ⟨claimed, -, rules, -, rfl, -⟩ := h
    rfl
  | .group id children, t, u, q, h => by
    simp only [buildPhase, bind_eq_ok_iff, pure, Except.pure, Except.ok.injEq, Prod.mk.injEq] at h
    obtain ⟨claimed, -, ⟨built, after⟩, hbuilt, rfl, -⟩ := h
    rw [Phase.decl, declsOf_of_buildPhases children hbuilt]

theorem declsOf_of_buildPhases : (l : List PhaseDecl) → ∀ {t u : PhaseTally} {m : List Phase},
    buildPhases t l = .ok (m, u) → Phase.declsOf m = l
  | [], t, u, m, h => by
    obtain ⟨rfl, -⟩ := Prod.mk.inj (Except.ok.inj h)
    rfl
  | p :: rest, t, u, m, h => by
    simp only [buildPhases, bind_eq_ok_iff, pure, Except.pure, Except.ok.injEq, Prod.mk.injEq] at h
    obtain ⟨⟨first, middle⟩, hfirst, ⟨others, after⟩, hothers, rfl, -⟩ := h
    rw [Phase.declsOf, decl_of_buildPhase p hfirst, declsOf_of_buildPhases rest hothers]

end

theorem decl_of_buildRoot (h : b.buildRoot = .ok root) : root.decl = .group rootName b.phases := by
  simp only [buildRoot, bind_eq_ok_iff, pure, Except.pure, Except.ok.injEq] at h
  obtain ⟨⟨children, after⟩, hchildren, rfl⟩ := h
  rw [Phase.decl, declsOf_of_buildPhases b.phases hchildren]

theorem decl_of_build (h : b.build = .ok start) :
    start.engine.phases.decl = .group rootName b.phases := by
  obtain ⟨game, snapshot, phases, -, -, hroot, rfl⟩ := build_eq_ok_iff.mp h
  exact decl_of_buildRoot hroot

theorem map_decl_leaves_of_build (h : b.build = .ok start) :
    start.engine.phases.leaves.map LeafPhase.decl = PhaseDecl.leavesOf b.phases := by
  rw [Phase.map_decl_leaves, decl_of_build h, PhaseDecl.leaves]

theorem ids_of_build (h : b.build = .ok start) :
    start.engine.phases.ids = rootName :: PhaseDecl.idsOf b.phases := by
  rw [← Phase.ids_decl, decl_of_build h, PhaseDecl.ids]

end Blueprint

theorem Agenda.Lists.getElem?_entries {a : Agenda} {indexed : Bool} {leaves : List LeafPhase}
    (h : a.Lists indexed leaves) {i : Nat} {p : LeafPhase} (hp : leaves[i]? = some p) :
    a.entries[i]? = some (entryOf p i) := by
  rw [h.entries_eq, List.getElem?_map, List.getElem?_zipIdx, hp, Nat.zero_add]
  rfl

namespace Blueprint

variable {b : Blueprint} {start : Session}

theorem names_nodup_of_build (h : b.build = .ok start) :
    start.engine.phases.ids.Nodup ∧
      (start.engine.phases.leaves.flatMap fun p => p.rule.ids).Nodup := by
  have hroot : ∃ root, b.buildRoot = .ok root := by
    obtain ⟨game, snapshot, phases, -, -, hroot, -⟩ := build_eq_ok_iff.mp h
    exact ⟨phases, hroot⟩
  obtain ⟨hphases, hreserved, hrules⟩ := exists_buildRoot_iff.mp hroot
  constructor
  · rw [ids_of_build h]
    exact List.nodup_cons.mpr ⟨hreserved, hphases⟩
  · rw [PhaseDecl.ruleIdsOf_eq_flatMap, ← map_decl_leaves_of_build h, List.flatMap_map] at hrules
    exact hrules

/-- A built game keeps its phases as they were declared: the tree under the reserved root has their shape,
names, guards and rules, and its leaves are listed and numbered in the order of declaration. An agenda of
them, with or without an index, has each leaf at its ordinal, filed under the type of its rule, and the
position that a candidate bears leads back to the leaf that it was made of. No phase and no rule shares
its name with another. -/
theorem build_keeps_phases (hbuild : b.build = .ok start) :
    let root := start.engine.phases
    let leaves := start.engine.leaves
    root.decl = .group rootName b.phases ∧
    (leaves = root.leaves ∧ leaves.map LeafPhase.decl = PhaseDecl.leavesOf b.phases ∧
      ∀ i (p : LeafPhase), leaves[i]? = some p → p.ordinal = i) ∧
    start.engine.agenda = (if b.config.useAgenda = true then
      some (Agenda.ofPhase root b.config.indexTypes) else none) ∧
    (∀ indexed, let agenda := Agenda.ofPhase root indexed
      agenda.length = leaves.length ∧
      ∀ i (p : LeafPhase), leaves[i]? = some p → ∃ entry : AgendaEntry,
        agenda.entries[i]? = some entry ∧ entry.index = i ∧ entry.phase = p ∧ entry.type = p.rule.type) ∧
    (root.ids = rootName :: PhaseDecl.idsOf b.phases ∧ root.ids.Nodup) ∧
    (leaves.flatMap fun p => p.rule.ids).Nodup ∧
    ∀ p ∈ leaves, leaves[(Candidate.ofLeaf p).position]? = some p := by
  intro root leaves
  obtain ⟨hids, hrules⟩ := names_nodup_of_build hbuild
  have hlaid : leaves = root.leaves ∧ Numbered 0 leaves ∧ start.engine.agenda =
      if b.config.useAgenda = true then some (Agenda.ofPhase root b.config.indexTypes) else none := by
    obtain ⟨game, snapshot, phases, -, -, hroot, rfl⟩ := build_eq_ok_iff.mp hbuild
    exact ⟨rfl, numbered_of_buildRoot hroot, rfl⟩
  obtain ⟨hleaves, hnumbered, hagenda⟩ := hlaid
  refine ⟨decl_of_build hbuild, ⟨hleaves, ?_, ?_⟩, hagenda, ?_, ⟨ids_of_build hbuild, hids⟩, ?_, ?_⟩
  · rw [hleaves]
    exact map_decl_leaves_of_build hbuild
  · intro i p hp
    rw [hnumbered.ordinal_eq hp, Nat.zero_add]
  · intro indexed agenda
    have hlists : agenda.Lists indexed leaves := hleaves ▸ Agenda.lists_ofPhase root indexed
    refine ⟨hlists.length_entries, fun i p hp => ?_⟩
    exact ⟨_, hlists.getElem?_entries hp, rfl, rfl, rfl⟩
  · rw [hleaves]
    exact hrules
  · intro p hp
    exact hnumbered.getElem?_ordinal hp

/-- Groups within groups, one of them empty, and rules for one type of event, for every event, and within
another rule. -/
def nested : Blueprint where
  phases := [
    .group "void" [],
    .group "day" [
      .leaf { id := "dawn", rule := Rule.new "wake" },
      .group "noon" [
        .leaf { id := "meal", guard := .test .never, rule := Rule.on .endTurn "eat" },
        .group "rest" []]],
    .leaf { id := "dusk", rule := Rule.anyOf "either" [Rule.on .endTurn "read", Rule.on .endTurn "walk"] }]

/-- The last leaf is found behind the groups, by the position of its candidate and in the agenda. -/
theorem nested_kept : ∃ start, nested.build = .ok start ∧
    start.engine.phases.decl = .group rootName nested.phases ∧
    start.engine.phases.ids = ["root", "void", "day", "dawn", "noon", "meal", "rest", "dusk"] ∧
    start.engine.leaves.map LeafPhase.id = ["dawn", "meal", "dusk"] ∧
    ∃ dusk entry, start.engine.leaves[2]? = some dusk ∧ dusk.rule.id = "either" ∧
      start.engine.leaves[(Candidate.ofLeaf dusk).position]? = some dusk ∧
      (Agenda.ofPhase start.engine.phases true).entries[2]? = some entry ∧
      entry.index = 2 ∧ entry.phase = dusk ∧ entry.type = some .endTurn := by
  refine ⟨_, rfl, ?_⟩
  obtain ⟨hdecl, -, -, hagenda, ⟨hids, -⟩, -, hposition⟩ := build_keeps_phases (b := nested) rfl
  obtain ⟨entry, hentry, hindex, hphase, htype⟩ := (hagenda true).2 2 _ rfl
  exact ⟨hdecl, hids, rfl, _, entry, rfl, rfl, hposition _ (List.mem_of_getElem? (i := 2) rfl), hentry,
    hindex, hphase, htype⟩

end Blueprint

end BoardGame
