import BoardGame.Proofs.Effect.Placement

/-!
What built-in effects do to the turn. Passing the turn on takes the marker of the player on turn down and
then puts up that of the next, in this order, so that a lone player keeps its turn; no other effect touches
a turn marker. So one player stays on turn throughout, and which one is told by counting the passes.
-/

namespace BoardGame

namespace Snapshot

/-- Every player has a turn marker, nobody else has one, and one player's marker alone is up. -/
structure SoleTurn (players : List ArtifactId) (player : ArtifactId) (s : Snapshot) : Prop
    extends Indexed s where
  declared : player ∈ players
  marker : ∀ id, s.get? id .activePlayer =
    if id ∈ players then some (.activePlayer id (id = player)) else none

variable {g : Game} {players : List ArtifactId} {player other id : ArtifactId} {aspect : Aspect}
  {s t : Snapshot} {i : Nat} {up : Bool}

theorem get?_put_marker : (s.put (.activePlayer player up)).get? id aspect =
    if id = player ∧ aspect = .activePlayer then some (.activePlayer player up)
    else s.get? id aspect := by
  rw [get?_put]
  simp [Status.key, Status.artifact, Status.aspect]

theorem activePlayer?_of_onTurn_iff (h : s.Indexed) (hsole : ∀ id, s.OnTurn id ↔ id = player) :
    s.activePlayer? = some player := by
  rw [activePlayer?_eq_some_iff h]
  refine ⟨(hsole player).mpr rfl, fun other hturn => ?_⟩
  obtain rfl := (hsole other).mp hturn
  exact String.le_refl other

namespace SoleTurn

theorem onTurn_iff (h : s.SoleTurn players player) : s.OnTurn other ↔ other = player := by
  rw [OnTurn, h.marker]
  constructor
  · intro hturn
    split at hturn
    · simpa using hturn
    · cases hturn
  · rintro rfl
    simp [h.declared]

theorem activePlayer?_eq (h : s.SoleTurn players player) : s.activePlayer? = some player :=
  activePlayer?_of_onTurn_iff h.toIndexed fun _ => h.onTurn_iff

theorem of_get?_eq (h : s.SoleTurn players player) (ht : t.Indexed)
    (hsame : ∀ id, t.get? id .activePlayer = s.get? id .activePlayer) :
    t.SoleTurn players player :=
  ⟨ht, h.declared, fun id => (hsame id).trans (h.marker id)⟩

theorem putAll_next (h : s.SoleTurn players player) (hother : other ∈ players) :
    (s.putAll [.activePlayer player false, .activePlayer other true]).SoleTurn players other := by
  refine ⟨h.toIndexed.putAll _, hother, fun id => ?_⟩
  have hput : s.putAll [.activePlayer player false, .activePlayer other true] =
      (s.put (.activePlayer player false)).put (.activePlayer other true) := rfl
  rw [hput, get?_put_marker, get?_put_marker, h.marker]
  by_cases hnext : id = other
  · subst hnext
    simp [hother]
  · by_cases hholder : id = player
    · subst hholder
      simp [hnext, h.declared]
    · simp [hnext, hholder]

end SoleTurn

theorem nextPlayer?_of_getElem? (hdistinct : g.players.Nodup) (hi : g.players[i]? = some player) :
    g.nextPlayer? player = g.players[(i + 1) % g.players.length]? := by
  obtain ⟨hlt, rfl⟩ := List.getElem?_eq_some_iff.mp hi
  have hindex : g.players.idxOf? g.players[i] = some i := by
    rw [List.idxOf?_eq_some_iff]
    refine ⟨hlt, rfl, fun j hj heq => ?_⟩
    have hsame := (hdistinct.getElem_inj_iff).mp heq
    omega
  rw [Game.nextPlayer?, hindex]
  rfl

/-- Passing the turn on takes the marker of the player found on turn down and puts up that of the next in
order; after the last comes the first. -/
theorem passTurn_eq (hdistinct : g.players.Nodup) (hi : g.players[i]? = some player)
    (hactive : s.activePlayer? = some player) :
    ∃ next, g.players[(i + 1) % g.players.length]? = some next ∧
      s.passTurn g = s.putAll [.activePlayer player false, .activePlayer next true] := by
  have hpositive : 0 < g.players.length := by
    have hlt := (List.getElem?_eq_some_iff.mp hi).1
    omega
  have hnext := List.getElem?_eq_getElem (Nat.mod_lt (i + 1) hpositive)
  refine ⟨_, hnext, ?_⟩
  rw [Snapshot.passTurn, hactive]
  dsimp only
  rw [nextPlayer?_of_getElem? hdistinct hi, hnext]

theorem SoleTurn.passTurn (hdistinct : g.players.Nodup) (hi : g.players[i]? = some player)
    (h : s.SoleTurn g.players player) :
    ∃ next, g.players[(i + 1) % g.players.length]? = some next ∧
      (s.passTurn g).SoleTurn g.players next := by
  obtain ⟨next, hnext, hpass⟩ := passTurn_eq hdistinct hi h.activePlayer?_eq
  refine ⟨next, hnext, ?_⟩
  rw [hpass]
  exact h.putAll_next (List.mem_of_getElem? hnext)

end Snapshot

namespace Effect

open Snapshot

variable {c : Setting} {s : Snapshot} {e : Event} {f : Effect} {effects : List Effect}
  {player : ArtifactId} {i : Nat}

def passesTurn : Effect → Bool
  | passTurn => true
  | _ => false

theorem get?_activePlayer_run (hbuiltin : ∀ x, f ≠ .custom x) (hother : f ≠ .passTurn)
    (id : ArtifactId) : (f.run c s e).get? id .activePlayer = s.get? id .activePlayer := by
  cases f with
  | movePiece =>
    cases e with
    | move m => exact get?_putAll_of_aspect_ne (by simp [Status.aspect])
    | _ => rfl
  | capture =>
    cases e with
    | move m =>
      have htaken : (s.captureAt m).get? id .activePlayer = s.get? id .activePlayer := by
        rw [Snapshot.captureAt, get?_foldl_capture]
        split <;> rfl
      exact htaken
    | _ => rfl
  | setDice =>
    cases e with
    | setDice faces =>
      refine get?_putAll_of_aspect_ne fun x hx => ?_
      obtain ⟨p, -, rfl⟩ := List.mem_map.mp hx
      simp [Status.aspect]
    | _ => rfl
  | rollDice =>
    cases e with
    | rollDice dice =>
      have hput : (s.putAll (c.game.rollAll dice (RollStream.resume s.rolls)).1).get? id
          .activePlayer = s.get? id .activePlayer := by
        refine get?_putAll_of_aspect_ne fun x hx => ?_
        rw [aspect_of_mem_rollAll hx]
        simp
      exact hput
    | _ => rfl
  | passTurn => exact absurd rfl hother
  | custom x => exact absurd rfl (hbuiltin x)

theorem soleTurn_run (hdistinct : c.game.players.Nodup) (hbuiltin : ∀ x, f ≠ .custom x)
    (hi : c.game.players[i]? = some player) (h : s.SoleTurn c.game.players player) :
    ∃ holder, c.game.players[(i + [f].countP passesTurn) % c.game.players.length]? = some holder ∧
      (f.run c s e).SoleTurn c.game.players holder := by
  by_cases hpass : f = .passTurn
  · subst hpass
    exact h.passTurn hdistinct hi
  · have hcount : [f].countP passesTurn = 0 := by
      cases f <;> first | rfl | exact absurd rfl hpass
    have hlt : i < c.game.players.length := (List.getElem?_eq_some_iff.mp hi).1
    refine ⟨player, ?_, h.of_get?_eq (indexed_run hbuiltin h.toIndexed)
      (get?_activePlayer_run hbuiltin hpass)⟩
    rwa [hcount, Nat.add_zero, Nat.mod_eq_of_lt hlt]

/-- After any built-in effects the turn is where the number of passes among them takes it. -/
theorem soleTurn_runAll (hdistinct : c.game.players.Nodup)
    (hbuiltin : ∀ f ∈ effects, ∀ x, f ≠ .custom x)
    (hi : c.game.players[i]? = some player) (h : s.SoleTurn c.game.players player) :
    ∃ holder, c.game.players[(i + effects.countP passesTurn) % c.game.players.length]? =
        some holder ∧
      (runAll c e effects s).SoleTurn c.game.players holder := by
  induction effects generalizing s i player with
  | nil =>
    have hlt : i < c.game.players.length := (List.getElem?_eq_some_iff.mp hi).1
    refine ⟨player, ?_, h⟩
    rwa [List.countP_nil, Nat.add_zero, Nat.mod_eq_of_lt hlt]
  | cons f rest ih =>
    obtain ⟨hf, hrest⟩ := List.forall_mem_cons.mp hbuiltin
    obtain ⟨next, hnext, hsole⟩ := soleTurn_run (e := e) hdistinct hf hi h
    obtain ⟨holder, hholder, hlast⟩ := ih hrest hnext hsole
    have hcount : (f :: rest).countP passesTurn =
        [f].countP passesTurn + rest.countP passesTurn := by
      rw [← List.countP_append, List.singleton_append]
    rw [Nat.mod_add_mod, Nat.add_assoc, ← hcount] at hholder
    exact ⟨holder, hholder, hlast⟩

end Effect

end BoardGame
