import BoardGame.Proofs.Setup.Board
import BoardGame.Proofs.Setup.Phases

/-!
The engine that building gives: it is made of the built game and the built phases, and the ordinal of
each leaf is its position among all leaves.
-/

namespace BoardGame

def Numbered (start : Nat) (l : List LeafPhase) : Prop :=
  l.map LeafPhase.ordinal = List.range' start l.length

theorem Numbered.append {start : Nat} {l m : List LeafPhase} (hl : Numbered start l)
    (hm : Numbered (start + l.length) m) : Numbered start (l ++ m) := by
  unfold Numbered at *
  rw [List.map_append, hl, hm, List.length_append, List.range'_append_1]

theorem Numbered.ordinal_eq {start i : Nat} {l : List LeafPhase} {p : LeafPhase}
    (h : Numbered start l) (hp : l[i]? = some p) : p.ordinal = start + i := by
  have hmap : (l.map LeafPhase.ordinal)[i]? = some p.ordinal := by rw [List.getElem?_map, hp]; rfl
  have hi : i < l.length := (List.getElem?_eq_some_iff.mp hp).1
  rw [h, List.getElem?_range' hi] at hmap
  simpa using (Option.some.inj hmap).symm

theorem Numbered.getElem?_ordinal {l : List LeafPhase} {p : LeafPhase} (h : Numbered 0 l)
    (hp : p ∈ l) : l[p.ordinal]? = some p := by
  obtain ⟨i, hi⟩ := List.getElem?_of_mem hp
  rw [h.ordinal_eq hi, Nat.zero_add, hi]

namespace Blueprint

theorem build_eq_ok_iff {b : Blueprint} {p : Session} :
    b.build = .ok p ↔ ∃ game snapshot phases, b.buildGame = .ok game ∧
      b.buildSnapshot game = .ok snapshot ∧ b.buildRoot = .ok phases ∧
      p = { engine := Engine.ofGame game phases b.config (b.observer.getD .logging), snapshot } := by
  simp only [build, bind_eq_ok_iff, pure, Except.pure, Except.ok.injEq]
  constructor
  · rintro ⟨game, hgame, snapshot, hsnapshot, phases, hphases, rfl⟩
    exact ⟨game, snapshot, phases, hgame, hsnapshot, hphases, rfl⟩
  · rintro ⟨game, snapshot, phases, hgame, hsnapshot, hphases, rfl⟩
    exact ⟨game, hgame, snapshot, hsnapshot, phases, hphases, rfl⟩

theorem agenda_of_build {b : Blueprint} {p : Session} (h : b.build = .ok p) : p.engine.agenda =
    if b.config.useAgenda then some (Agenda.ofPhase p.engine.phases b.config.indexTypes)
    else none := by
  obtain ⟨game, snapshot, phases, -, -, -, rfl⟩ := build_eq_ok_iff.mp h
  rfl

theorem next_of_claimPhase {t u : PhaseTally} {id : PhaseId} (h : claimPhase t id = .ok u) :
    u.next = t.next := by
  obtain ⟨-, rfl⟩ := claimPhase_eq_ok_iff.mp h
  rfl

theorem board_wellFormed_of_build {b : Blueprint} {p : Session} (h : b.build = .ok p) :
    p.engine.game.board.WellFormed := by
  obtain ⟨game, _, _, hgame, -, -, rfl⟩ := build_eq_ok_iff.mp h
  exact wellFormed_of_buildGame hgame

mutual

/-- Building a phase numbers its leaves from the tally's next ordinal on. -/
theorem numbered_of_buildPhase : (p : PhaseDecl) → ∀ {t u : PhaseTally} {q : Phase},
    buildPhase t p = .ok (q, u) →
    Numbered t.next q.leaves ∧ u.next = t.next + q.leaves.length
  | .leaf p, t, u, q, h => by
    simp only [buildPhase, bind_eq_ok_iff, pure, Except.pure, Except.ok.injEq, Prod.mk.injEq] at h
    obtain ⟨claimed, hclaimed, rules, -, rfl, rfl⟩ := h
    rw [next_of_claimPhase hclaimed]
    exact ⟨rfl, rfl⟩
  | .group id children, t, u, q, h => by
    simp only [buildPhase, bind_eq_ok_iff, pure, Except.pure, Except.ok.injEq, Prod.mk.injEq] at h
    obtain ⟨claimed, hclaimed, ⟨built, after⟩, hbuilt, rfl, rfl⟩ := h
    rw [← next_of_claimPhase hclaimed]
    exact numbered_of_buildPhases children hbuilt

theorem numbered_of_buildPhases : (l : List PhaseDecl) → ∀ {t u : PhaseTally} {m : List Phase},
    buildPhases t l = .ok (m, u) →
    Numbered t.next (Phase.leavesOf m) ∧ u.next = t.next + (Phase.leavesOf m).length
  | [], t, u, m, h => by
    obtain ⟨rfl, rfl⟩ := Prod.mk.inj (Except.ok.inj h)
    exact ⟨rfl, rfl⟩
  | p :: rest, t, u, m, h => by
    simp only [buildPhases, bind_eq_ok_iff, pure, Except.pure, Except.ok.injEq, Prod.mk.injEq] at h
    obtain ⟨⟨first, middle⟩, hfirst, ⟨others, after⟩, hothers, rfl, rfl⟩ := h
    obtain ⟨hnumbered, hmiddle⟩ := numbered_of_buildPhase p hfirst
    obtain ⟨hrest, hafter⟩ := numbered_of_buildPhases rest hothers
    rw [hmiddle] at hrest hafter
    refine ⟨hnumbered.append hrest, ?_⟩
    rw [Phase.leavesOf, List.length_append, hafter, Nat.add_assoc]

end

theorem numbered_of_buildRoot {b : Blueprint} {root : Phase} (h : b.buildRoot = .ok root) :
    Numbered 0 root.leaves := by
  simp only [buildRoot, bind_eq_ok_iff, pure, Except.pure, Except.ok.injEq] at h
  obtain ⟨⟨children, after⟩, hchildren, rfl⟩ := h
  exact (numbered_of_buildPhases b.phases hchildren).1

end Blueprint

end BoardGame
