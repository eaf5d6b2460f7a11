import BoardGame.Effect.Basic
import BoardGame.Proofs.Snapshot.Indexes

/-!
What built-in effects do to the pieces. Only moving and capturing touch them, and only for an event that
is a move. Between the effects of one rule two pieces may share the tile where the move ends; a capture
leaves the moving piece alone there, and nothing that comes after it brings another piece to that tile.
-/

namespace BoardGame

namespace Snapshot

def InPlay (s : Snapshot) (piece : ArtifactId) : Prop :=
  (s.tileOf? piece).isSome = true ∨ (s.get? piece .captured).isSome = true

/-- Every piece on the board is a declared one on a declared tile and is not captured. -/
structure Accounted (g : Game) (s : Snapshot) : Prop extends Indexed s where
  piece_declared : ∀ piece tile, s.tileOf? piece = some tile → (g.piece? piece).isSome = true
  tile_declared : ∀ piece tile, s.tileOf? piece = some tile → tile ∈ g.board.tiles
  not_captured : ∀ piece tile, s.tileOf? piece = some tile → s.get? piece .captured = none

/-- Besides, no two pieces stand on one tile. -/
structure Orderly (g : Game) (s : Snapshot) : Prop extends Accounted g s where
  alone : ∀ p q tile, s.tileOf? p = some tile → s.tileOf? q = some tile → p = q

/-- Nothing but the moving piece stands where the move ends. -/
def Clear (m : Move) (s : Snapshot) : Prop :=
  ∀ piece, s.tileOf? piece = some m.target → piece = m.piece

/-- What holds between the effects of a move: pieces may share the tile where it ends, and no other. -/
structure Underway (g : Game) (m : Move) (s : Snapshot) : Prop extends Accounted g s where
  mover_placed : (s.tileOf? m.piece).isSome = true
  target_declared : m.target ∈ g.board.tiles
  alone_elsewhere : ∀ p q tile, tile ≠ m.target →
    s.tileOf? p = some tile → s.tileOf? q = some tile → p = q

/-- How a snapshot relates to a later one in the course of handling an event. -/
structure Follows (e : Event) (s t : Snapshot) : Prop where
  inPlay_iff : ∀ piece, t.InPlay piece ↔ s.InPlay piece
  mover_placed : ∀ m, e = .move m → (s.tileOf? m.piece).isSome = true →
    (t.tileOf? m.piece).isSome = true
  clear : ∀ m, e = .move m → s.Clear m → t.Clear m

def SamePlaces (s t : Snapshot) : Prop :=
  ∀ piece, t.tileOf? piece = s.tileOf? piece ∧ t.get? piece .captured = s.get? piece .captured

variable {g : Game} {m : Move} {e : Event} {s t u : Snapshot} {piece tile : ArtifactId}
  {aspect : Aspect} {statuses : List Status} {l : List ArtifactId}

theorem Follows.refl (e : Event) (s : Snapshot) : Follows e s s :=
  ⟨fun _ => Iff.rfl, fun _ _ h => h, fun _ _ h => h⟩

theorem Follows.trans (h : Follows e s t) (h' : Follows e t u) : Follows e s u :=
  ⟨fun piece => (h'.inPlay_iff piece).trans (h.inPlay_iff piece),
    fun m hm hplaced => h'.mover_placed m hm (h.mover_placed m hm hplaced),
    fun m hm hclear => h'.clear m hm (h.clear m hm hclear)⟩

theorem Indexed.mem_piecesOn_iff (h : s.Indexed) :
    piece ∈ s.piecesOn tile ↔ s.tileOf? piece = some tile :=
  (h.occupants tile piece).trans h.tileOf?_eq_some_iff.symm

theorem Indexed.orderly_iff (h : s.Indexed) : s.Orderly g ↔
    ∀ p ∈ s.carriersOf .piece, ∀ tile ∈ s.tileOf? p,
      (g.piece? p).isSome = true ∧ tile ∈ g.board.tiles ∧ s.get? p .captured = none ∧
      ∀ q ∈ s.carriersOf .piece, tile ∈ s.tileOf? q → p = q := by
  constructor
  · intro hs p _ tile htile
    exact ⟨hs.piece_declared p tile htile, hs.tile_declared p tile htile,
      hs.not_captured p tile htile, fun q _ hq => hs.alone p q tile htile hq⟩
  · intro hall
    have hcarrier : ∀ p tile, s.tileOf? p = some tile → p ∈ s.carriersOf .piece := by
      intro p tile htile
      rw [carriersOf, h.carriers, h.tileOf?_eq_some_iff.mp htile]
      rfl
    have hplaced := fun p tile htile => hall p (hcarrier p tile htile) tile htile
    exact ⟨⟨h, fun p tile htile => (hplaced p tile htile).1,
      fun p tile htile => (hplaced p tile htile).2.1,
      fun p tile htile => (hplaced p tile htile).2.2.1⟩,
      fun p q tile hp hq => (hplaced p tile hp).2.2.2 q (hcarrier q tile hq) hq⟩

/-! ### Changes that leave the pieces alone -/

namespace SamePlaces

theorem inPlay_iff (h : SamePlaces s t) : t.InPlay piece ↔ s.InPlay piece := by
  rw [InPlay, InPlay, (h piece).1, (h piece).2]

theorem accounted (h : SamePlaces s t) (ht : t.Indexed) (hs : s.Accounted g) : t.Accounted g := by
  refine ⟨ht, ?_, ?_, ?_⟩
  · intro piece tile htile
    exact hs.piece_declared piece tile ((h piece).1 ▸ htile)
  · intro piece tile htile
    exact hs.tile_declared piece tile ((h piece).1 ▸ htile)
  · intro piece tile htile
    exact (h piece).2.trans (hs.not_captured piece tile ((h piece).1 ▸ htile))

theorem orderly (h : SamePlaces s t) (ht : t.Indexed) (hs : s.Orderly g) : t.Orderly g :=
  ⟨h.accounted ht hs.toAccounted, fun p q tile hp hq =>
    hs.alone p q tile ((h p).1 ▸ hp) ((h q).1 ▸ hq)⟩

theorem underway (h : SamePlaces s t) (ht : t.Indexed) (hs : s.Underway g m) : t.Underway g m := by
  refine ⟨h.accounted ht hs.toAccounted, ?_, hs.target_declared, ?_⟩
  · rw [(h m.piece).1]
    exact hs.mover_placed
  · intro p q tile hne hp hq
    exact hs.alone_elsewhere p q tile hne ((h p).1 ▸ hp) ((h q).1 ▸ hq)

theorem trans (h : SamePlaces s t) (h' : SamePlaces t u) : SamePlaces s u := fun piece =>
  ⟨(h' piece).1.trans (h piece).1, (h' piece).2.trans (h piece).2⟩

theorem follows (h : SamePlaces s t) : Follows e s t := by
  refine ⟨fun piece => h.inPlay_iff, ?_, ?_⟩
  · intro m _ hplaced
    rwa [(h m.piece).1]
  · intro m _ hclear piece htile
    exact hclear piece ((h piece).1 ▸ htile)

end SamePlaces

theorem get?_putAll_of_aspect_ne {aspect : Aspect} (h : ∀ x ∈ statuses, x.aspect ≠ aspect) :
    (s.putAll statuses).get? piece aspect = s.get? piece aspect := by
  have hnone : statuses.reverse.find? (fun x => x.key = (piece, aspect)) = none := by
    rw [List.find?_eq_none]
    intro x hx hkey
    exact h x (List.mem_reverse.mp hx) (Prod.mk.inj (of_decide_eq_true hkey)).2
  rw [get?_putAll, hnone, Option.none_or]

theorem samePlaces_putAll (h : ∀ x ∈ statuses, x.aspect ≠ .piece ∧ x.aspect ≠ .captured) :
    SamePlaces s (s.putAll statuses) := by
  intro piece
  constructor
  · rw [tileOf?, tileOf?, get?_putAll_of_aspect_ne fun x hx => (h x hx).1]
  · exact get?_putAll_of_aspect_ne fun x hx => (h x hx).2

theorem samePlaces_showFaces (faces : List (ArtifactId × Int64)) :
    SamePlaces s (s.showFaces faces) := by
  apply samePlaces_putAll
  intro x hx
  obtain ⟨p, -, rfl⟩ := List.mem_map.mp hx
  exact ⟨by simp [Status.aspect], by simp [Status.aspect]⟩

theorem samePlaces_passTurn : SamePlaces s (s.passTurn g) := by
  unfold passTurn
  split <;> split
  · exact samePlaces_putAll (by simp [Status.aspect])
  · exact fun _ => ⟨rfl, rfl⟩
  · exact samePlaces_putAll (by simp [Status.aspect])
  · exact fun _ => ⟨rfl, rfl⟩

theorem Indexed.passTurn (h : s.Indexed) : (s.passTurn g).Indexed := by
  unfold Snapshot.passTurn
  split <;> split
  · exact h.putAll _
  · exact h
  · exact h.putAll _
  · exact h

theorem exists_of_mem_rollAll {dice : List ArtifactId} {r : RollStream} {x : Status}
    (h : x ∈ (g.rollAll dice r).1) :
    ∃ id ∈ dice, (g.die? id).isSome = true ∧ ∃ face, x = .dice id (some face) := by
  induction dice generalizing r with
  | nil => cases h
  | cons id rest ih =>
    rw [Game.rollAll] at h
    split at h
    · obtain ⟨other, hother, hrolled⟩ := ih h
      exact ⟨other, List.mem_cons_of_mem id hother, hrolled⟩
    · rename_i die hdie
      rcases List.mem_cons.mp h with rfl | h
      · exact ⟨id, List.mem_cons_self, Option.isSome_of_mem hdie, _, rfl⟩
      · obtain ⟨other, hother, hrolled⟩ := ih h
        exact ⟨other, List.mem_cons_of_mem id hother, hrolled⟩

theorem aspect_of_mem_rollAll {dice : List ArtifactId} {r : RollStream} {x : Status}
    (h : x ∈ (g.rollAll dice r).1) : x.aspect = .dice := by
  obtain ⟨id, -, -, face, rfl⟩ := exists_of_mem_rollAll h
  rfl

theorem samePlaces_rollDice (dice : List ArtifactId) : SamePlaces s (s.rollDice g dice) := by
  have hput : SamePlaces s (s.putAll (g.rollAll dice (RollStream.resume s.rolls)).1) := by
    apply samePlaces_putAll
    intro x hx
    rw [aspect_of_mem_rollAll hx]
    exact ⟨by simp, by simp⟩
  exact hput

/-! ### Moving -/

theorem get?_moveTo : (s.moveTo m).get? piece aspect =
    if (piece, aspect) = (m.piece, .piece) then some (.piece m.piece m.target)
    else s.get? piece aspect :=
  s.get?_put (.piece m.piece m.target) piece aspect

theorem tileOf?_moveTo :
    (s.moveTo m).tileOf? piece = if piece = m.piece then some m.target else s.tileOf? piece := by
  rw [tileOf?, get?_moveTo]
  by_cases hpiece : piece = m.piece
  · rw [if_pos (by rw [hpiece]), if_pos hpiece]
  · rw [if_neg fun hkey => hpiece (Prod.mk.inj hkey).1, if_neg hpiece]
    rfl

theorem get?_captured_moveTo :
    (s.moveTo m).get? piece .captured = s.get? piece .captured :=
  get?_putAll_of_aspect_ne (by simp [Status.aspect])

namespace Underway

theorem moveTo (h : s.Underway g m) : (s.moveTo m).Underway g m := by
  obtain ⟨source, hsource⟩ := Option.isSome_iff_exists.mp h.mover_placed
  have hcases : ∀ piece tile, (s.moveTo m).tileOf? piece = some tile →
      piece = m.piece ∧ tile = m.target ∨ piece ≠ m.piece ∧ s.tileOf? piece = some tile := by
    intro piece tile htile
    rw [tileOf?_moveTo] at htile
    split at htile
    · rename_i hpiece
      exact Or.inl ⟨hpiece, (Option.some.inj htile).symm⟩
    · rename_i hpiece
      exact Or.inr ⟨hpiece, htile⟩
  refine ⟨⟨h.toIndexed.putAll _, ?_, ?_, ?_⟩, ?_, h.target_declared, ?_⟩
  · intro piece tile htile
    rcases hcases piece tile htile with ⟨rfl, -⟩ | ⟨-, hold⟩
    · exact h.piece_declared _ _ hsource
    · exact h.piece_declared _ _ hold
  · intro piece tile htile
    rcases hcases piece tile htile with ⟨-, rfl⟩ | ⟨-, hold⟩
    · exact h.target_declared
    · exact h.tile_declared _ _ hold
  · intro piece tile htile
    rw [get?_captured_moveTo]
    rcases hcases piece tile htile with ⟨rfl, -⟩ | ⟨-, hold⟩
    · exact h.not_captured _ _ hsource
    · exact h.not_captured _ _ hold
  · rw [tileOf?_moveTo, if_pos rfl]
    rfl
  · intro p q tile hne hp hq
    rcases hcases p tile hp with ⟨-, rfl⟩ | ⟨-, hp⟩
    · exact absurd rfl hne
    rcases hcases q tile hq with ⟨-, rfl⟩ | ⟨-, hq⟩
    · exact absurd rfl hne
    exact h.alone_elsewhere p q tile hne hp hq

theorem follows_moveTo (h : s.Underway g m) : Follows (.move m) s (s.moveTo m) := by
  refine ⟨?_, ?_, ?_⟩
  · intro piece
    rw [InPlay, InPlay, tileOf?_moveTo, get?_captured_moveTo]
    split
    · rename_i hpiece
      subst hpiece
      simp [h.mover_placed]
    · exact Iff.rfl
  · rintro m' ⟨⟩ -
    rw [tileOf?_moveTo, if_pos rfl]
    rfl
  · rintro m' ⟨⟩ hclear piece htile
    rw [tileOf?_moveTo] at htile
    split at htile
    · assumption
    · exact hclear piece htile

end Underway

/-! ### Capturing -/

/-- What is found of a piece once it is captured: no place, a mark, and all else as it was. -/
def onceCaptured? (s : Snapshot) (piece : ArtifactId) : Aspect → Option Status
  | .piece => none
  | .captured => some (.captured piece)
  | aspect => s.get? piece aspect

theorem get?_capture {other : ArtifactId} :
    (s.capture other).get? piece aspect =
      if piece = other then s.onceCaptured? piece aspect else s.get? piece aspect := by
  have hput : s.capture other = (s.remove other .piece).put (.captured other) := rfl
  rw [hput, get?_put, get?_remove]
  by_cases hpiece : piece = other
  · subst hpiece
    cases aspect <;> simp [Status.key, Status.artifact, Status.aspect, onceCaptured?]
  · have hkey : (piece, aspect) ≠ (Status.captured other).key :=
      fun hkey => hpiece (Prod.mk.inj hkey).1
    have hother : (piece, aspect) ≠ (other, Aspect.piece) :=
      fun hkey => hpiece (Prod.mk.inj hkey).1
    rw [if_neg hkey, if_neg hother, if_neg hpiece]

theorem onceCaptured?_capture {other : ArtifactId} :
    (s.capture other).onceCaptured? piece aspect = s.onceCaptured? piece aspect := by
  cases aspect with
  | piece => rfl
  | captured => rfl
  | _ =>
    simp only [onceCaptured?, get?_capture]
    split <;> rfl

theorem get?_foldl_capture : (l.foldl capture s).get? piece aspect =
    if piece ∈ l then s.onceCaptured? piece aspect else s.get? piece aspect := by
  induction l generalizing s with
  | nil => simp
  | cons other rest ih =>
    rw [List.foldl_cons, ih, get?_capture, onceCaptured?_capture]
    by_cases hpiece : piece = other <;> simp [hpiece]

theorem Indexed.foldl_capture (h : s.Indexed) : (l.foldl capture s).Indexed := by
  induction l generalizing s with
  | nil => exact h
  | cons other rest ih => exact ih ((h.remove other .piece).putAll _)

/-- A piece that a move captures: it stands where the move ends and is not the one that moves. -/
def Taken (m : Move) (s : Snapshot) (piece : ArtifactId) : Prop :=
  s.tileOf? piece = some m.target ∧ piece ≠ m.piece

instance : Decidable (s.Taken m piece) := inferInstanceAs (Decidable (_ ∧ _))

theorem Indexed.mem_taken_iff (h : s.Indexed) :
    piece ∈ (s.piecesOn m.target).filter (· ≠ m.piece) ↔ s.Taken m piece := by
  rw [List.mem_filter, h.mem_piecesOn_iff, decide_eq_true_eq, Taken]

theorem Indexed.get?_captureAt (h : s.Indexed) : (s.captureAt m).get? piece aspect =
    if s.Taken m piece then s.onceCaptured? piece aspect else s.get? piece aspect := by
  rw [captureAt, get?_foldl_capture]
  simp only [h.mem_taken_iff]

theorem Indexed.tileOf?_captureAt (h : s.Indexed) :
    (s.captureAt m).tileOf? piece = if s.Taken m piece then none else s.tileOf? piece := by
  rw [tileOf?, h.get?_captureAt]
  by_cases htaken : s.Taken m piece
  · rw [if_pos htaken, if_pos htaken]
    rfl
  · rw [if_neg htaken, if_neg htaken]
    rfl

theorem Indexed.clear_captureAt (h : s.Indexed) : (s.captureAt m).Clear m := by
  intro piece htile
  rw [h.tileOf?_captureAt] at htile
  split at htile
  · cases htile
  · rename_i hfree
    by_contra hne
    exact hfree ⟨htile, hne⟩

namespace Underway

theorem captureAt (h : s.Underway g m) : (s.captureAt m).Underway g m := by
  have hcases : ∀ piece tile, (s.captureAt m).tileOf? piece = some tile →
      ¬ s.Taken m piece ∧ s.tileOf? piece = some tile := by
    intro piece tile htile
    rw [h.toIndexed.tileOf?_captureAt] at htile
    split at htile
    · cases htile
    · rename_i hfree
      exact ⟨hfree, htile⟩
  refine ⟨⟨h.toIndexed.foldl_capture, ?_, ?_, ?_⟩, ?_, h.target_declared, ?_⟩
  · intro piece tile htile
    exact h.piece_declared piece tile (hcases piece tile htile).2
  · intro piece tile htile
    exact h.tile_declared piece tile (hcases piece tile htile).2
  · intro piece tile htile
    obtain ⟨hfree, hold⟩ := hcases piece tile htile
    rw [h.toIndexed.get?_captureAt, if_neg hfree]
    exact h.not_captured piece tile hold
  · rw [h.toIndexed.tileOf?_captureAt, if_neg fun htaken => htaken.2 rfl]
    exact h.mover_placed
  · intro p q tile hne hp hq
    exact h.alone_elsewhere p q tile hne (hcases p tile hp).2 (hcases q tile hq).2

theorem follows_captureAt (h : s.Underway g m) : Follows (.move m) s (s.captureAt m) := by
  refine ⟨?_, ?_, ?_⟩
  · intro piece
    rw [InPlay, InPlay, h.toIndexed.tileOf?_captureAt, h.toIndexed.get?_captureAt]
    split
    · rename_i htaken
      simp [htaken.1, onceCaptured?]
    · exact Iff.rfl
  · rintro m' ⟨⟩ hplaced
    rwa [h.toIndexed.tileOf?_captureAt, if_neg fun htaken => htaken.2 rfl]
  · rintro m' ⟨⟩ -
    exact h.toIndexed.clear_captureAt

theorem orderly (h : s.Underway g m) (hclear : s.Clear m) : s.Orderly g := by
  refine ⟨h.toAccounted, fun p q tile hp hq => ?_⟩
  by_cases htile : tile = m.target
  · subst htile
    rw [hclear p hp, hclear q hq]
  · exact h.alone_elsewhere p q tile htile hp hq

end Underway

theorem Orderly.underway (h : s.Orderly g) (hmover : (s.tileOf? m.piece).isSome = true)
    (htarget : m.target ∈ g.board.tiles) : s.Underway g m :=
  ⟨h.toAccounted, hmover, htarget, fun p q tile _ => h.alone p q tile⟩

end Snapshot

/-! ### Effects -/

namespace Effect

open Snapshot

variable {c : Setting} {s : Snapshot} {e : Event} {m : Move} {f : Effect} {effects : List Effect}

theorem indexed_run (hbuiltin : ∀ x, f ≠ .custom x) (hs : s.Indexed) : (f.run c s e).Indexed := by
  cases f with
  | movePiece =>
    cases e with
    | move m => exact hs.putAll _
    | _ => exact hs
  | capture =>
    cases e with
    | move m => exact hs.foldl_capture
    | _ => exact hs
  | setDice =>
    cases e with
    | setDice faces => exact hs.putAll _
    | _ => exact hs
  | rollDice =>
    cases e with
    | rollDice dice => exact (hs.putAll _).setRolls _
    | _ => exact hs
  | passTurn => exact hs.passTurn
  | custom x => exact absurd rfl (hbuiltin x)

theorem samePlaces_run (hbuiltin : ∀ x, f ≠ .custom x)
    (hother : ∀ m, e = .move m → f ≠ .movePiece ∧ f ≠ .capture) : SamePlaces s (f.run c s e) := by
  have hsame : SamePlaces s s := fun _ => ⟨rfl, rfl⟩
  cases f with
  | movePiece =>
    cases e with
    | move m => exact absurd rfl (hother m rfl).1
    | _ => exact hsame
  | capture =>
    cases e with
    | move m => exact absurd rfl (hother m rfl).2
    | _ => exact hsame
  | setDice =>
    cases e with
    | setDice faces => exact samePlaces_showFaces faces
    | _ => exact hsame
  | rollDice =>
    cases e with
    | rollDice dice => exact samePlaces_rollDice dice
    | _ => exact hsame
  | passTurn => exact samePlaces_passTurn
  | custom x => exact absurd rfl (hbuiltin x)

theorem underway_run {g : Game} (hbuiltin : ∀ x, f ≠ .custom x) (hs : s.Underway g m) :
    (f.run c s (.move m)).Underway g m ∧ Follows (.move m) s (f.run c s (.move m)) := by
  by_cases htouch : f = .movePiece ∨ f = .capture
  · rcases htouch with rfl | rfl
    · exact ⟨hs.moveTo, hs.follows_moveTo⟩
    · exact ⟨hs.captureAt, hs.follows_captureAt⟩
  · obtain ⟨hmove, hcapture⟩ := not_or.mp htouch
    have hsame : SamePlaces s (f.run c s (.move m)) :=
      samePlaces_run hbuiltin fun _ _ => ⟨hmove, hcapture⟩
    exact ⟨hsame.underway (indexed_run hbuiltin hs.toIndexed) hs, hsame.follows⟩

/-- Effects that cannot touch the pieces, because of what they are or of what the event is. -/
theorem samePlaces_runAll (hbuiltin : ∀ x, custom x ∉ effects)
    (hother : ∀ m, e = .move m → movePiece ∉ effects ∧ capture ∉ effects) (hs : s.Indexed) :
    (runAll c e effects s).Indexed ∧ SamePlaces s (runAll c e effects s) := by
  induction effects generalizing s with
  | nil => exact ⟨hs, fun _ => ⟨rfl, rfl⟩⟩
  | cons f rest ih =>
    simp only [List.mem_cons, not_or] at hbuiltin hother
    have hf : ∀ x, f ≠ custom x := fun x => Ne.symm (hbuiltin x).1
    have hsame : SamePlaces s (f.run c s e) :=
      samePlaces_run hf fun m hm => ⟨Ne.symm (hother m hm).1.1, Ne.symm (hother m hm).2.1⟩
    obtain ⟨hindexed, hrest⟩ := ih (fun x => (hbuiltin x).2)
      (fun m hm => ⟨(hother m hm).1.2, (hother m hm).2.2⟩) (indexed_run hf hs)
    exact ⟨hindexed, hsame.trans hrest⟩

/-- What the effects of a move preserve. They leave the moving piece alone on the tile where the move ends
if it was so before, or if there is a capture among them. -/
theorem underway_runAll {g : Game} (hbuiltin : ∀ x, custom x ∉ effects) (hs : s.Underway g m) :
    (runAll c (.move m) effects s).Underway g m ∧
    Follows (.move m) s (runAll c (.move m) effects s) ∧
    (s.Clear m ∨ capture ∈ effects → (runAll c (.move m) effects s).Clear m) := by
  induction effects generalizing s with
  | nil =>
    refine ⟨hs, Follows.refl _ s, ?_⟩
    rintro (hclear | hcapture)
    · exact hclear
    · cases hcapture
  | cons f rest ih =>
    simp only [List.mem_cons, not_or] at hbuiltin
    have hf : ∀ x, f ≠ custom x := fun x => Ne.symm (hbuiltin x).1
    obtain ⟨hnext, hfollows⟩ := underway_run (c := c) hf hs
    obtain ⟨hlast, hrest, hclear⟩ := ih (fun x => (hbuiltin x).2) hnext
    refine ⟨hlast, hfollows.trans hrest, fun h => hclear ?_⟩
    rcases h with hbefore | hcapture
    · exact Or.inl (hfollows.clear m rfl hbefore)
    · rcases List.mem_cons.mp hcapture with rfl | hlater
      · exact Or.inl hs.toIndexed.clear_captureAt
      · exact Or.inr hlater

end Effect

end BoardGame
