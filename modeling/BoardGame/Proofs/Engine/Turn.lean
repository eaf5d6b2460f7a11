import BoardGame.Proofs.Effect.Turn
import BoardGame.Proofs.Engine.Conservation

/-!
Whose turn it is. A game that names its first player starts with one player on turn. An applied event runs
a list of effects, those of all rules carried out one after the other, so that one player stays on turn is
shown effect by effect; and each pass among them moves the turn on by one in the order of the players.
-/

namespace BoardGame

open Snapshot

namespace Session

/-- The sessions that handling events leads to. An event that fails leads nowhere. -/
inductive Reached (start : Session) : Session → Prop where
  | start : Reached start start
  | handled {p q : Session} {call : Nat} {event : Event} :
    Reached start p → (p.handle call event).value = .ok q → Reached start q

theorem Reached.next {start p : Session} (h : start.Reached p) (call : Nat) (i : Input) :
    start.Reached (p.next call i) := by
  rcases p.next_cases call i with hstay | ⟨event, hhandled⟩
  · rwa [hstay]
  · exact h.handled hhandled

theorem Reached.engine_eq {start p : Session} (h : start.Reached p) : p.engine = start.engine := by
  induction h with
  | start => rfl
  | handled _ hq ih => exact (engine_of_handle hq).trans ih

end Session

namespace Blueprint

variable {b : Blueprint} {start p : Session} {first player : ArtifactId} {i : Nat} {s : Snapshot}
  {event : Event} {decision : Decision} {done rest : List Effect}

theorem players_of_build (h : b.build = .ok start) : start.engine.game.players = b.players := by
  obtain ⟨table, -, hgame⟩ := exists_table_of_build h
  rw [hgame]
  rfl

theorem players_nodup_of_build (h : b.build = .ok start) : b.players.Nodup := by
  have hdistinct := (wellFormed_of_build h).artifacts_distinct
  unfold artifactIds at hdistinct
  exact hdistinct.of_append_left.of_append_left.of_append_left.of_append_right

theorem soleTurn_of_build (hbuild : b.build = .ok start) (hactive : b.activePlayer = some first)
    (hmarkers : ∀ x ∈ b.statuses, x.aspect ≠ .activePlayer) :
    start.snapshot.SoleTurn b.players first := by
  refine ⟨indexed_of_build hbuild, (wellFormed_of_build hbuild).active_declared first hactive, ?_⟩
  intro id
  have hdeclared : b.statuses.reverse.find? (fun x => x.key = (id, .activePlayer)) = none := by
    refine List.find?_eq_none.mpr fun x hx hkey => ?_
    exact hmarkers x (List.mem_reverse.mp hx) (Prod.mk.inj (of_decide_eq_true hkey)).2
  rw [snapshot_of_build hbuild, get?_startSnapshot, hdeclared, Option.none_or, hactive, Option.map_some]
  simp only [true_and]

/-- After any part of the effects that an event runs, one player is on turn: as many further on as there are
passes in that part. -/
theorem soleTurn_within_event (hbuild : b.build = .ok start)
    (hbuiltin : ∀ leaf ∈ start.engine.phases.leaves, leaf.rule.Builtin)
    (hi : b.players[i]? = some player) (hs : s.SoleTurn b.players player)
    (hsplit : start.engine.performed event s decision = done ++ rest) :
    ∃ holder, b.players[(i + done.countP Effect.passesTurn) % b.players.length]? = some holder ∧
      (Effect.runAll start.engine.setting event done s).SoleTurn b.players holder := by
  have hplayers : start.engine.setting.game.players = b.players := players_of_build hbuild
  have hdistinct := players_nodup_of_build hbuild
  have hperformed : ∀ f ∈ start.engine.performed event s decision, ∀ x, f ≠ .custom x :=
    Engine.forall_mem_performed ((laidOut_of_build hbuild).leaves_eq ▸ hbuiltin)
  rw [hsplit, List.forall_mem_append] at hperformed
  rw [← hplayers] at hdistinct hi hs ⊢
  exact Effect.soleTurn_runAll hdistinct hperformed.1 hi hs

theorem soleTurn_of_reached (hbuild : b.build = .ok start) (hactive : b.activePlayer = some first)
    (hmarkers : ∀ x ∈ b.statuses, x.aspect ≠ .activePlayer)
    (hbuiltin : ∀ leaf ∈ start.engine.phases.leaves, leaf.rule.Builtin)
    (hp : start.Reached p) :
    ∃ (i : Nat) (player : ArtifactId), b.players[i]? = some player ∧
      p.snapshot.SoleTurn b.players player := by
  induction hp with
  | start =>
    have hsole := soleTurn_of_build hbuild hactive hmarkers
    obtain ⟨i, hi⟩ := List.getElem?_of_mem hsole.declared
    exact ⟨i, first, hi, hsole⟩
  | handled hreached hq ih =>
    obtain ⟨i, player, hi, hsole⟩ := ih
    rcases Session.handle_cases hq with rfl | ⟨snapshot, decision, happlied, rfl⟩
    · exact ⟨i, player, hi, hsole⟩
    · rw [hreached.engine_eq] at happlied
      obtain ⟨holder, hholder, hlast⟩ :=
        soleTurn_within_event hbuild hbuiltin hi hsole (List.append_nil _).symm
      rw [← Engine.runAll_performed happlied] at hlast
      exact ⟨_, holder, hholder, hlast⟩

/-- A game that names its first player and leaves the turn to built-in effects has one player on turn at
every moment of every play, whatever its rules, their nesting and the way in which events are evaluated:
the first player to begin with, and after each pass the next in the order of the players. -/
theorem turn_passes_in_order (hbuild : b.build = .ok start) (hactive : b.activePlayer = some first)
    (hmarkers : ∀ x ∈ b.statuses, x.aspect ≠ .activePlayer)
    (hbuiltin : ∀ leaf ∈ start.engine.phases.leaves, leaf.rule.Builtin) :
    start.snapshot.SoleTurn b.players first ∧
    (∀ call inputs, ∀ report ∈ start.run call inputs,
      ∃ p, start.Reached p ∧ report.snapshot = p.snapshot) ∧
    ∀ p, start.Reached p → ∃ (i : Nat) (player : ArtifactId),
      b.players[i]? = some player ∧ p.snapshot.SoleTurn b.players player ∧
      p.snapshot.activePlayer? = some player ∧
      ∀ call event q, (p.handle call event).value = .ok q → q = p ∨ ∃ decision,
        let effects := start.engine.performed event p.snapshot decision
        q.lastDecision = some decision ∧
        q.snapshot = Effect.runAll start.engine.setting event effects p.snapshot ∧
        ∀ done rest, effects = done ++ rest →
          ∃ holder, b.players[(i + done.countP Effect.passesTurn) % b.players.length]? = some holder ∧
            (Effect.runAll start.engine.setting event done p.snapshot).SoleTurn b.players holder := by
  refine ⟨soleTurn_of_build hbuild hactive hmarkers, fun call inputs => ?_, fun p hp => ?_⟩
  · exact Session.forall_mem_run (fun _ call i h => h.next call i) Session.Reached.start inputs
  obtain ⟨i, player, hi, hsole⟩ := soleTurn_of_reached hbuild hactive hmarkers hbuiltin hp
  refine ⟨i, player, hi, hsole, hsole.activePlayer?_eq, fun call event q hq => ?_⟩
  rcases Session.handle_cases hq with hstay | ⟨snapshot, decision, happlied, rfl⟩
  · exact Or.inl hstay
  · rw [hp.engine_eq] at happlied
    refine Or.inr ⟨decision, rfl, Engine.runAll_performed happlied, fun done rest hsplit => ?_⟩
    exact soleTurn_within_event hbuild hbuiltin hi hsole hsplit

/-- A rule for the end of a turn that passes it on as often as it says. -/
def passing (id : RuleId) (times : Nat) (guard : EventGuard := EventGuard.always) : Rule :=
  .simple { id, type := some .endTurn, guard } (List.replicate times .passTurn)

/-- Players who are not named in the order of their turns, and two phases whose rules are both carried out
at the end of a turn. -/
def carousel : Blueprint where
  players := ["zoe", "adam", "mia"]
  activePlayer := some "adam"
  phases := [
    .leaf {
      id := "spin"
      rule := Rule.allOf "both" [
        passing "once" 1, Rule.anyOf "either" [passing "halt" 2 (.test .never), passing "go" 1]] },
    .leaf { id := "finish", rule := passing "twice" 2 }]
  config := { strategy := .applyAll }

theorem builtin_carousel (h : carousel.build = .ok start) :
    ∀ leaf ∈ start.engine.phases.leaves, leaf.rule.Builtin := by
  have hpassing : ∀ id times guard, (passing id times guard).Builtin := fun _ _ _ =>
    Rule.everyEffect_simple_iff.mpr fun f hf x => by simp [List.eq_of_mem_replicate hf]
  cases h
  intro leaf hleaf
  rcases List.mem_cons.mp hleaf with rfl | hleaf
  · refine Rule.everyEffect_all_iff.mpr (List.forall_mem_cons.mpr ⟨hpassing _ _ _, ?_⟩)
    refine List.forall_mem_singleton.mpr (Rule.everyEffect_any_iff.mpr ?_)
    exact List.forall_mem_cons.mpr ⟨hpassing _ _ _, List.forall_mem_singleton.mpr (hpassing _ _ _)⟩
  · obtain rfl := List.mem_singleton.mp hleaf
    exact hpassing _ _ _

/-- Four passes in one event take the turn once around the three players and one further. -/
theorem carousel_turns : ∃ start next, carousel.build = .ok start ∧
    carousel.activePlayer = some "adam" ∧ (∀ x ∈ carousel.statuses, x.aspect ≠ .activePlayer) ∧
    (∀ leaf ∈ start.engine.phases.leaves, leaf.rule.Builtin) ∧
    start.snapshot.SoleTurn carousel.players "adam" ∧
    (start.handle 1 .endTurn).value = .ok next ∧ next.snapshot.SoleTurn carousel.players "mia" := by
  have hrun : ∃ start next, carousel.build = .ok start ∧
      (start.handle 1 .endTurn).value = .ok next ∧ next.snapshot.activePlayer? = some "mia" :=
    ⟨_, _, rfl, rfl, by decide +kernel⟩
  obtain ⟨start, next, hbuild, hend, hmia⟩ := hrun
  have hmarkers : ∀ x ∈ carousel.statuses, x.aspect ≠ .activePlayer := List.forall_mem_nil _
  have hbuiltin := builtin_carousel hbuild
  obtain ⟨hsole, -, hreached⟩ := turn_passes_in_order hbuild rfl hmarkers hbuiltin
  refine ⟨start, next, hbuild, rfl, hmarkers, hbuiltin, hsole, hend, ?_⟩
  obtain ⟨i, player, -, hholder, hplayer, -⟩ := hreached next (Session.Reached.start.handled hend)
  rw [hmia] at hplayer
  cases hplayer
  exact hholder

end Blueprint

end BoardGame
