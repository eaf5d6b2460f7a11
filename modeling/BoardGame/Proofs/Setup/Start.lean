import BoardGame.Proofs.Setup.Acceptance
import BoardGame.Proofs.Snapshot.Indexes

/-!
Where play starts. The starting snapshot is made by one list of writes, the turn markers of all players
before the declared statuses, and by recording the extras; so the last declaration of a key is found there,
and a turn marker only where no status was declared in its place. Every status was checked against the
game before it was written, and what is found at the end was written.
-/

namespace BoardGame

namespace Snapshot

variable {s : Snapshot}

theorem get?_setExtra (s : Snapshot) (key : String) (value : Value) (artifact : ArtifactId)
    (aspect : Aspect) : (s.setExtra key value).get? artifact aspect = s.get? artifact aspect := by
  unfold setExtra
  split <;> rfl

theorem rolls_setExtra (s : Snapshot) (key : String) (value : Value) :
    (s.setExtra key value).rolls = s.rolls := by
  unfold setExtra
  split <;> rfl

def setExtras (s : Snapshot) (extras : List (String × Value)) : Snapshot :=
  extras.foldl (fun s e => s.setExtra e.1 e.2) s

theorem get?_setExtras (s : Snapshot) (extras : List (String × Value)) (artifact : ArtifactId)
    (aspect : Aspect) : (s.setExtras extras).get? artifact aspect = s.get? artifact aspect := by
  induction extras generalizing s with
  | nil => rfl
  | cons e rest ih => exact (ih _).trans (s.get?_setExtra e.1 e.2 artifact aspect)

theorem rolls_setExtras (s : Snapshot) (extras : List (String × Value)) :
    (s.setExtras extras).rolls = s.rolls := by
  induction extras generalizing s with
  | nil => rfl
  | cons e rest ih => exact (ih _).trans (s.rolls_setExtra e.1 e.2)

theorem extra?_setExtras (s : Snapshot) (extras : List (String × Value)) (key : String) :
    (s.setExtras extras).extra? key =
      ((extras.reverse.find? fun e => e.1 = key).map Prod.snd).or (s.extra? key) := by
  induction extras generalizing s with
  | nil => rfl
  | cons e rest ih =>
    have hrest : (s.setExtras (e :: rest)).extra? key =
        ((rest.reverse.find? fun e => e.1 = key).map Prod.snd).or
          (if key = e.1 then some e.2 else s.extra? key) :=
      (ih (s.setExtra e.1 e.2)).trans (by rw [extra?_setExtra])
    rw [hrest, List.reverse_cons, List.find?_append, Option.map_or, Option.or_assoc]
    congr 1
    by_cases hkey : e.1 = key
    · simp [hkey]
    · simp [hkey, Ne.symm hkey]

theorem Indexed.setExtras (h : s.Indexed) (extras : List (String × Value)) :
    (s.setExtras extras).Indexed := by
  induction extras generalizing s with
  | nil => exact h
  | cons e rest ih => exact ih (h.setExtra e.1 e.2)

end Snapshot

namespace Blueprint

open Snapshot

variable {b : Blueprint} {start : Session} {id : ArtifactId} {aspect : Aspect} {status : Status}

/-- What is written to make the starting snapshot, once all of it is checked. -/
def startSnapshot (b : Blueprint) : Snapshot :=
  ((seeded b.config.seed).putAll (b.turnMarkers ++ b.statuses)).setExtras b.extras

theorem snapshot_of_build (h : b.build = .ok start) : start.snapshot = b.startSnapshot := by
  obtain ⟨game, snapshot, phases, -, hsnapshot, -, rfl⟩ := build_eq_ok_iff.mp h
  simp only [buildSnapshot, bind_eq_ok_iff, pure, Except.pure, Except.ok.injEq] at hsnapshot
  obtain ⟨-, -, -, -, rfl⟩ := hsnapshot
  rfl

theorem exists_editAll_of_build (h : b.build = .ok start) :
    ∃ seed edits, start.snapshot = (seeded seed).editAll edits := by
  refine ⟨b.config.seed,
    .put (b.turnMarkers ++ b.statuses) :: b.extras.map (fun e => .extra e.1 e.2), ?_⟩
  rw [snapshot_of_build h, editAll, List.foldl_cons, List.foldl_map]
  rfl

theorem indexed_of_build (h : b.build = .ok start) : start.snapshot.Indexed := by
  rw [snapshot_of_build h]
  exact ((indexed_seeded b.config.seed).putAll _).setExtras b.extras

theorem find?_markers (players : List ArtifactId) (active id : ArtifactId) (aspect : Aspect) :
    (players.map fun player => Status.activePlayer player (player = active)).reverse.find?
        (fun x => x.key = (id, aspect)) =
      if aspect = .activePlayer ∧ id ∈ players then some (.activePlayer id (id = active))
      else none := by
  have hkey : ∀ player up, (Status.activePlayer player up).key = (id, aspect) ↔
      aspect = .activePlayer ∧ player = id := by
    intro player up
    simp [Status.key, Status.artifact, Status.aspect, and_comm, eq_comm]
  rw [← List.map_reverse, List.find?_map]
  simp only [Function.comp_def, hkey]
  by_cases haspect : aspect = .activePlayer
  · simp only [haspect, true_and]
    cases hfind : players.reverse.find? (fun player => player = id) with
    | none =>
      have hnone : id ∉ players := fun hmem => by
        simpa using List.find?_eq_none.mp hfind id (List.mem_reverse.mpr hmem)
      rw [if_neg hnone, Option.map_none]
    | some found =>
      have hfound := List.find?_some hfind
      obtain rfl : found = id := of_decide_eq_true hfound
      rw [if_pos (List.mem_reverse.mp (List.mem_of_find?_eq_some hfind))]
      rfl
  · simp [haspect]

theorem find?_turnMarkers (b : Blueprint) (id : ArtifactId) (aspect : Aspect) :
    b.turnMarkers.reverse.find? (fun x => x.key = (id, aspect)) =
      if aspect = .activePlayer ∧ id ∈ b.players then
        b.activePlayer.map fun active => .activePlayer id (id = active)
      else none := by
  unfold turnMarkers
  cases b.activePlayer with
  | none => simp
  | some active => exact find?_markers b.players active id aspect

/-- A declared status is found before any turn marker of the same key. -/
theorem get?_startSnapshot (b : Blueprint) (id : ArtifactId) (aspect : Aspect) :
    b.startSnapshot.get? id aspect =
      (b.statuses.reverse.find? fun x => x.key = (id, aspect)).or
        (if aspect = .activePlayer ∧ id ∈ b.players then
          b.activePlayer.map fun active => .activePlayer id (id = active)
        else none) := by
  have hseeded : (seeded b.config.seed).get? id aspect = none := rfl
  rw [startSnapshot, get?_setExtras, get?_putAll, hseeded, Option.or_none, List.reverse_append,
    List.find?_append, find?_turnMarkers]

theorem extra?_startSnapshot (b : Blueprint) (key : String) :
    b.startSnapshot.extra? key = (b.extras.reverse.find? fun e => e.1 = key).map Prod.snd := by
  have hseeded : ((seeded b.config.seed).putAll (b.turnMarkers ++ b.statuses)).extra? key = none := by
    rw [extra?, extras_putAll]
    rfl
  rw [startSnapshot, extra?_setExtras, hseeded, Option.or_none]

theorem rolls_startSnapshot (b : Blueprint) :
    b.startSnapshot.rolls = { seed := b.config.seed, position := 0 } := by
  rw [startSnapshot, rolls_setExtras, rolls_putAll]
  rfl

theorem fits_of_get?_startSnapshot (h : b.WellFormed)
    (hget : b.startSnapshot.get? id aspect = some status) : b.Fits status := by
  rw [get?_startSnapshot] at hget
  rcases Option.or_eq_some_iff.mp hget with hdeclared | ⟨-, hmarker⟩
  · exact h.statuses_fit status (List.mem_reverse.mp (List.mem_of_find?_eq_some hdeclared))
  · split at hmarker
    · rename_i hplayer
      obtain ⟨active, -, rfl⟩ := Option.map_eq_some_iff.mp hmarker
      exact hplayer.2
    · cases hmarker

end Blueprint

namespace Draft

/-- Play starts with the last status declared of each artifact and aspect; where none was, with the turn
marker of a player, if a first player was named at all, up for the one named last; and otherwise with
nothing. The last value of each extra is recorded, and the dice are those of the last seed, not yet
rolled. All that is found there fits the declarations, and the indexes mirror it. -/
theorem starts_with_last_declared {declarations : List Declaration} {draft : Draft} {start : Session}
    (hdeclared : declarations.foldlM declare {} = .ok draft)
    (hcompiled : draft.compile.value.1 = .ok start) :
    let s := start.snapshot
    let statuses := declarations.filterMap Declaration.status?
    let extras := declarations.filterMap Declaration.extra?
    (∀ artifact aspect, s.get? artifact aspect =
      (statuses.filter fun x => x.key = (artifact, aspect)).getLast?.or
        (if aspect = .activePlayer ∧ artifact ∈ declarations.filterMap Declaration.player? then
          (declarations.filterMap Declaration.activePlayer?).getLast?.map fun active =>
            .activePlayer artifact (artifact = active)
        else none)) ∧
    (∀ key, s.extra? key = (extras.filter fun e => e.1 = key).getLast?.map Prod.snd) ∧
    s.rolls =
      { seed := ((declarations.filterMap Declaration.config?).getLast?.getD {}).seed, position := 0 } ∧
    (∀ artifact aspect status, s.get? artifact aspect = some status →
      status.key = (artifact, aspect) ∧ (Blueprint.ofDeclarations declarations).Fits status) ∧
    s.Indexed := by
  have hbuild : (Blueprint.ofDeclarations declarations).build = .ok start := by
    obtain rfl := Except.ok.inj ((foldlM_declare {} declarations).symm.trans hdeclared)
    rw [← Blueprint.foldl_add_eq_ofDeclarations]
    exact hcompiled
  intro s statuses extras
  have hstart : s = (Blueprint.ofDeclarations declarations).startSnapshot :=
    Blueprint.snapshot_of_build hbuild
  have hindexed : s.Indexed := Blueprint.indexed_of_build hbuild
  refine ⟨fun artifact aspect => ?_, fun key => ?_, ?_, fun artifact aspect status hget => ?_, hindexed⟩
  · rw [hstart, Blueprint.get?_startSnapshot, List.getLast?_filter]
    rfl
  · rw [hstart, Blueprint.extra?_startSnapshot, List.getLast?_filter]
    rfl
  · rw [hstart, Blueprint.rolls_startSnapshot]
    rfl
  · refine ⟨hindexed.key_eq hget, ?_⟩
    rw [hstart] at hget
    exact Blueprint.fits_of_get?_startSnapshot (Blueprint.wellFormed_of_build hbuild) hget

/-- A piece that is placed twice, a turn marker declared against the first player named last, and an extra
and a seed given twice. -/
def openings : List Declaration :=
  [.tile "a1", .tile "a2", .activePlayer "white", .pieceAt "pawn" "a1", .extra "round" (.int 1),
    .config { seed := 7 }, .status (.activePlayer "white" true), .player "white", .player "black",
    .pieceAt "pawn" "a2", .piece { id := "pawn" }, .activePlayer "black", .extra "round" (.int 2),
    .config { seed := 9 }, .diceValue "d6" 6, .dice "d6" 6]

theorem openings_last_declared : ∃ draft start, openings.foldlM declare {} = .ok draft ∧
    draft.compile.value.1 = .ok start ∧
    start.snapshot.get? "pawn" .piece = some (.piece "pawn" "a2") ∧
    "pawn" ∈ start.snapshot.piecesOn "a2" ∧ "pawn" ∉ start.snapshot.piecesOn "a1" ∧
    start.snapshot.get? "white" .activePlayer = some (.activePlayer "white" true) ∧
    start.snapshot.get? "black" .activePlayer = some (.activePlayer "black" true) ∧
    start.snapshot.get? "d6" .captured = none ∧
    start.snapshot.extra? "round" = some (.int 2) ∧
    start.snapshot.rolls = { seed := 9, position := 0 } := by
  have hdeclared := foldlM_declare {} openings
  refine ⟨_, _, hdeclared, rfl, ?_⟩
  obtain ⟨hget, hextra, hrolls, -, hindexed⟩ := starts_with_last_declared hdeclared rfl
  have hpawn := (hget "pawn" .piece).trans (show _ = some (Status.piece "pawn" "a2") from rfl)
  refine ⟨hpawn, (hindexed.occupants "a2" "pawn").mpr hpawn, fun hmem => ?_, ?_, ?_, ?_, ?_, hrolls⟩
  · have hstale := hpawn.symm.trans ((hindexed.occupants "a1" "pawn").mp hmem)
    exact absurd hstale (by decide)
  · exact (hget "white" .activePlayer).trans rfl
  · exact (hget "black" .activePlayer).trans rfl
  · exact (hget "d6" .captured).trans rfl
  · exact (hextra "round").trans rfl

end Draft

end BoardGame
