import BoardGame.Proofs.Engine.Turn
import BoardGame.Proofs.Setup.Start
import BoardGame.Proofs.Snapshot.Canonical

/-!
The turn as a rotation. With a marker for every player and one player on turn, giving the turn to a player
writes all markers, and whom it was with before is forgotten; passing it on is giving it to the next. So any
number of passes is giving it once, to the player that many further on, and after a whole round there is no
trace of the passes. Players are counted in the order of their declaration, whatever their names.
-/

namespace BoardGame

namespace Snapshot

/-- The turn is given to a player: the marker of each player says whether it is that one. -/
def giveTurn (s : Snapshot) (players : List ArtifactId) (player : ArtifactId) : Snapshot :=
  s.putAll (players.map fun id => .activePlayer id (id = player))

/-- Every player has a turn marker, and of all markers that of one player alone is up. Markers of others
than players may lie about, but are down. -/
structure HasTurn (players : List ArtifactId) (player : ArtifactId) (s : Snapshot) : Prop
    extends Indexed s where
  declared : player ∈ players
  marked : ∀ id ∈ players, (s.get? id .activePlayer).isSome = true
  onTurn_iff : ∀ id, s.OnTurn id ↔ id = player

variable {g : Game} {c : Setting} {players : List ArtifactId} {player other id : ArtifactId}
  {aspect : Aspect} {s : Snapshot} {i : Nat}

theorem get?_giveTurn : (s.giveTurn players player).get? id aspect =
    if aspect = .activePlayer ∧ id ∈ players then some (.activePlayer id (id = player))
    else s.get? id aspect := by
  rw [giveTurn, get?_putAll, Blueprint.find?_markers]
  split
  · rfl
  · rfl

theorem get?_giveTurn_of_aspect_ne (h : aspect ≠ .activePlayer) :
    (s.giveTurn players player).get? id aspect = s.get? id aspect := by
  rw [get?_giveTurn, if_neg fun hmarker => h hmarker.1]

theorem Indexed.giveTurn (h : s.Indexed) : (s.giveTurn players player).Indexed := h.putAll _

/-- Whose turn it was is forgotten. -/
theorem Indexed.giveTurn_giveTurn (h : s.Indexed) :
    (s.giveTurn players player).giveTurn players other = s.giveTurn players other := by
  apply h.giveTurn.giveTurn.ext_statuses h.giveTurn (by simp [Snapshot.giveTurn])
    (by simp [Snapshot.giveTurn])
  intro id aspect
  rw [get?_giveTurn, get?_giveTurn, get?_giveTurn]
  split
  · rfl
  · rfl

namespace HasTurn

theorem get?_marker (h : s.HasTurn players player) (hid : id ∈ players) :
    s.get? id .activePlayer = some (.activePlayer id (id = player)) := by
  obtain ⟨status, hstatus⟩ := Option.isSome_iff_exists.mp (h.marked id hid)
  obtain ⟨up, rfl⟩ := eq_activePlayer_of_key (h.key_eq hstatus)
  have hup : up = true ↔ id = player := by
    rw [← h.onTurn_iff id, OnTurn, hstatus]
    simp
  rw [hstatus]
  by_cases hplayer : id = player
  · simp [hplayer, hup.mpr hplayer]
  · simp [hplayer, Bool.eq_false_iff.mpr fun htrue => hplayer (hup.mp htrue)]

theorem activePlayer?_eq (h : s.HasTurn players player) : s.activePlayer? = some player :=
  activePlayer?_of_onTurn_iff h.toIndexed h.onTurn_iff

theorem giveTurn_self (h : s.HasTurn players player) : s.giveTurn players player = s := by
  apply h.toIndexed.giveTurn.ext_statuses h.toIndexed (by simp [Snapshot.giveTurn])
    (by simp [Snapshot.giveTurn])
  intro id aspect
  rw [get?_giveTurn]
  split
  · rename_i hmarker
    obtain ⟨rfl, hid⟩ := hmarker
    exact (h.get?_marker hid).symm
  · rfl

theorem giveTurn (h : s.HasTurn players player) (hother : other ∈ players) :
    (s.giveTurn players other).HasTurn players other := by
  refine ⟨h.toIndexed.giveTurn, hother, fun id hid => ?_, fun id => ?_⟩
  · rw [get?_giveTurn, if_pos ⟨rfl, hid⟩]
    rfl
  · rw [OnTurn, get?_giveTurn]
    by_cases hid : id ∈ players
    · rw [if_pos ⟨rfl, hid⟩]
      simp
    · rw [if_neg fun hmarker => hid hmarker.2]
      refine iff_of_false (fun hturn => ?_) fun heq => hid (heq ▸ hother)
      exact hid ((h.onTurn_iff id).mp hturn ▸ h.declared)

/-- With one player on turn, the two markers that a pass writes are all that the next player's turn takes. -/
theorem putAll_next (h : s.HasTurn players player) (hother : other ∈ players) :
    s.putAll [.activePlayer player false, .activePlayer other true] = s.giveTurn players other := by
  apply (h.toIndexed.putAll _).ext_statuses h.toIndexed.giveTurn (by simp [Snapshot.giveTurn])
    (by simp [Snapshot.giveTurn])
  intro id aspect
  have hput : s.putAll [.activePlayer player false, .activePlayer other true] =
      (s.put (.activePlayer player false)).put (.activePlayer other true) := rfl
  rw [hput, get?_put_marker, get?_put_marker, get?_giveTurn]
  by_cases haspect : aspect = .activePlayer
  · subst haspect
    by_cases hnext : id = other
    · subst hnext
      simp [hother]
    · by_cases hholder : id = player
      · subst hholder
        simp [hnext, h.declared]
      · by_cases hid : id ∈ players
        · simp [hnext, hholder, hid, h.get?_marker hid]
        · simp [hnext, hholder, hid]
  · simp [haspect]

theorem passTurn_eq (hdistinct : g.players.Nodup) (hi : g.players[i]? = some player)
    (h : s.HasTurn g.players player) :
    ∃ next, g.players[(i + 1) % g.players.length]? = some next ∧
      s.passTurn g = s.giveTurn g.players next := by
  obtain ⟨next, hnext, hpass⟩ := Snapshot.passTurn_eq hdistinct hi h.activePlayer?_eq
  exact ⟨next, hnext, hpass.trans (h.putAll_next (List.mem_of_getElem? hnext))⟩

/-- Any number of passes gives the turn once, to the player that many further on. -/
theorem foldl_passTurn (hdistinct : c.game.players.Nodup) (hi : c.game.players[i]? = some player)
    (h : s.HasTurn c.game.players player) (events : List Event) :
    ∃ holder, c.game.players[(i + events.length) % c.game.players.length]? = some holder ∧
      events.foldl (fun s e => Effect.passTurn.run c s e) s = s.giveTurn c.game.players holder := by
  induction events generalizing s i player with
  | nil =>
    have hlt : i < c.game.players.length := (List.getElem?_eq_some_iff.mp hi).1
    refine ⟨player, ?_, h.giveTurn_self.symm⟩
    rwa [List.length_nil, Nat.add_zero, Nat.mod_eq_of_lt hlt]
  | cons event rest ih =>
    obtain ⟨next, hnext, hpass⟩ := h.passTurn_eq hdistinct hi
    obtain ⟨holder, hholder, hrest⟩ := ih hnext (h.giveTurn (List.mem_of_getElem? hnext))
    refine ⟨holder, ?_, ?_⟩
    · rw [List.length_cons, Nat.add_comm rest.length, ← Nat.add_assoc, ← hholder, Nat.mod_add_mod]
    · rw [List.foldl_cons, ← h.toIndexed.giveTurn_giveTurn, ← hrest]
      exact congrArg (List.foldl _ · rest) hpass

end HasTurn

theorem passTurn_of_nobody (hnobody : s.activePlayer? = none)
    (hfirst : g.players.head? = some player) :
    s.passTurn g = s.putAll [.activePlayer player true] := by
  rw [passTurn, hnobody]
  dsimp only
  rw [hfirst]

theorem Indexed.onTurn_iff_of_nobody (h : s.Indexed) (hnobody : s.activePlayer? = none) :
    (s.putAll [.activePlayer player true]).OnTurn id ↔ id = player := by
  have hget : (s.putAll [.activePlayer player true]).get? id .activePlayer = _ := get?_put_marker
  rw [OnTurn, hget]
  by_cases hid : id = player
  · simp [hid]
  · rw [if_neg fun hmarker => hid hmarker.1]
    exact iff_of_false ((activePlayer?_eq_none_iff h).mp hnobody id) hid

end Snapshot

namespace Blueprint

open Snapshot

variable {b : Blueprint} {start : Session} {s : Snapshot}

/-- With a marker for every player and one player on turn, passing the turn on any number of times, on
whatever events, gives it to the player that many further on in the order of declaration, and changes turn
markers alone; after whole rounds the snapshot is the one that there was before. With nobody on turn, the
first player gets it. -/
theorem turn_rotates (hbuild : b.build = .ok start) (hs : s.Indexed) :
    let pass := fun (s : Snapshot) (event : Event) => Effect.passTurn.run start.engine.setting s event
    (∀ (i : Nat) (player : ArtifactId), b.players[i]? = some player →
      (∀ id ∈ b.players, (s.get? id .activePlayer).isSome = true) →
      (∀ id, s.OnTurn id ↔ id = player) →
      ∀ events : List Event,
        ∃ holder, b.players[(i + events.length) % b.players.length]? = some holder ∧
          let t := events.foldl pass s
          t.activePlayer? = some holder ∧ (∀ id, t.OnTurn id ↔ id = holder) ∧
          (∀ id aspect, aspect ≠ .activePlayer → t.get? id aspect = s.get? id aspect) ∧
          t.extras = s.extras ∧ t.rolls = s.rolls ∧
          (b.players.length ∣ events.length → t = s)) ∧
    (s.activePlayer? = none → ∀ first, b.players.head? = some first → ∀ event : Event,
      let t := pass s event
      t.activePlayer? = some first ∧ (∀ id, t.OnTurn id ↔ id = first) ∧
      (∀ id aspect, (id, aspect) ≠ (first, .activePlayer) → t.get? id aspect = s.get? id aspect) ∧
      t.extras = s.extras ∧ t.rolls = s.rolls) := by
  intro pass
  have hplayers : start.engine.setting.game.players = b.players := players_of_build hbuild
  have hdistinct := players_nodup_of_build hbuild
  rw [← hplayers] at hdistinct ⊢
  constructor
  · intro i player hi hmarked hsole events
    have h : s.HasTurn start.engine.setting.game.players player :=
      ⟨hs, List.mem_of_getElem? hi, hmarked, hsole⟩
    obtain ⟨holder, hholder, hpassed⟩ := h.foldl_passTurn hdistinct hi events
    have hturn := h.giveTurn (List.mem_of_getElem? hholder)
    refine ⟨holder, hholder, ?_⟩
    intro t
    have ht : t = s.giveTurn start.engine.setting.game.players holder := hpassed
    rw [ht]
    refine ⟨hturn.activePlayer?_eq, hturn.onTurn_iff, fun id aspect => get?_giveTurn_of_aspect_ne,
      extras_putAll s _, rolls_putAll s _, ?_⟩
    rintro ⟨rounds, hrounds⟩
    have hlt : i < start.engine.setting.game.players.length := (List.getElem?_eq_some_iff.mp hi).1
    rw [hrounds, Nat.add_mul_mod_self_left, Nat.mod_eq_of_lt hlt, hi] at hholder
    cases hholder
    exact h.giveTurn_self
  · intro hnobody first hfirst event t
    have ht : t = s.putAll [.activePlayer first true] := passTurn_of_nobody hnobody hfirst
    have hsole : ∀ id, t.OnTurn id ↔ id = first := fun id => ht ▸ hs.onTurn_iff_of_nobody hnobody
    have hindexed : t.Indexed := ht ▸ hs.putAll _
    refine ⟨activePlayer?_of_onTurn_iff hindexed hsole, hsole, fun id aspect hkey => ?_, ?_, ?_⟩
    · rw [ht]
      exact get?_put_marker.trans (if_neg fun hmarker => hkey (Prod.ext hmarker.1 hmarker.2))
    · rw [ht, extras_putAll]
    · rw [ht, rolls_putAll]

/-- Two passes take the turn past the end of the three players, three leave no trace; and a snapshot without
turn markers gets its first player. -/
theorem carousel_rotates : ∃ start, carousel.build = .ok start ∧
    let s := start.snapshot
    let pass := fun (s : Snapshot) (event : Event) => Effect.passTurn.run start.engine.setting s event
    s.Indexed ∧ carousel.players[1]? = some "adam" ∧
    (∀ id ∈ carousel.players, (s.get? id .activePlayer).isSome = true) ∧
    (∀ id, s.OnTurn id ↔ id = "adam") ∧
    ([.endTurn, .endTurn].foldl pass s).activePlayer? = some "zoe" ∧
    [.endTurn, .endTurn, .endTurn].foldl pass s = s ∧
    (seeded 0).Indexed ∧ (seeded 0).activePlayer? = none ∧ carousel.players.head? = some "zoe" ∧
    (pass (seeded 0) .endTurn).activePlayer? = some "zoe" := by
  obtain ⟨start, hbuild⟩ : ∃ start, carousel.build = .ok start := ⟨_, rfl⟩
  have hturn := soleTurn_of_build hbuild rfl (List.forall_mem_nil _)
  have hmarked : ∀ id ∈ carousel.players, (start.snapshot.get? id .activePlayer).isSome = true := by
    intro id hid
    rw [hturn.marker, if_pos hid]
    rfl
  have hsole : ∀ id, start.snapshot.OnTurn id ↔ id = "adam" := fun _ => hturn.onTurn_iff
  have hpassed := (turn_rotates hbuild hturn.toIndexed).1 1 "adam" rfl hmarked hsole
  obtain ⟨holder, hholder, hactive, -⟩ := hpassed [.endTurn, .endTurn]
  obtain ⟨-, -, -, -, -, -, -, hround⟩ := hpassed [.endTurn, .endTurn, .endTurn]
  obtain rfl : "zoe" = holder := Option.some.inj hholder
  obtain ⟨hfirst, -⟩ := (turn_rotates hbuild (indexed_seeded 0)).2 rfl "zoe" rfl .endTurn
  exact ⟨start, hbuild, hturn.toIndexed, rfl, hmarked, hsole, hactive, hround (Nat.dvd_refl _),
    indexed_seeded 0, rfl, rfl, hfirst⟩

end Blueprint

end BoardGame
