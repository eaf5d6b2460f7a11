import BoardGame.Proofs.Effect.Placement
import BoardGame.Proofs.Snapshot.Canonical

/-!
Capturing on arrival. The pieces to capture are read off the index before the first of them is taken, so
taking them one by one takes exactly those. Arriving concerns the moving piece alone, which is never among
them: so it makes no difference whether the tile is cleared before the piece arrives or after.
-/

namespace BoardGame.Snapshot

variable {m : Move} {s : Snapshot} {piece : ArtifactId} {aspect : Aspect}

@[simp] theorem extras_moveTo (s : Snapshot) (m : Move) : (s.moveTo m).extras = s.extras :=
  s.extras_putAll _

@[simp] theorem rolls_moveTo (s : Snapshot) (m : Move) : (s.moveTo m).rolls = s.rolls :=
  s.rolls_putAll _

theorem frame_foldl_capture (s : Snapshot) (l : List ArtifactId) :
    (l.foldl capture s).extras = s.extras ∧ (l.foldl capture s).rolls = s.rolls := by
  induction l generalizing s with
  | nil => exact ⟨rfl, rfl⟩
  | cons other rest ih =>
    obtain ⟨hextras, hrolls⟩ := ih (s.capture other)
    rw [List.foldl_cons, hextras, hrolls, capture]
    simp

@[simp] theorem extras_captureAt (s : Snapshot) (m : Move) : (s.captureAt m).extras = s.extras :=
  (s.frame_foldl_capture _).1

@[simp] theorem rolls_captureAt (s : Snapshot) (m : Move) : (s.captureAt m).rolls = s.rolls :=
  (s.frame_foldl_capture _).2

theorem taken_moveTo_iff : (s.moveTo m).Taken m piece ↔ s.Taken m piece := by
  rw [Taken, Taken, tileOf?_moveTo]
  refine and_congr_left fun hne => ?_
  rw [if_neg hne]

theorem get?_moveTo_of_ne (hne : piece ≠ m.piece) :
    (s.moveTo m).get? piece aspect = s.get? piece aspect := by
  rw [get?_moveTo, if_neg fun hkey => hne (Prod.mk.inj hkey).1]

theorem onceCaptured?_moveTo (hne : piece ≠ m.piece) :
    (s.moveTo m).onceCaptured? piece aspect = s.onceCaptured? piece aspect := by
  cases aspect with
  | piece => rfl
  | captured => rfl
  | _ => exact get?_moveTo_of_ne hne

namespace Indexed

theorem moveTo (h : s.Indexed) : (s.moveTo m).Indexed := h.putAll _

theorem captureAt (h : s.Indexed) : (s.captureAt m).Indexed := h.foldl_capture

/-- Clearing the tile and arriving on it may change places. -/
theorem captureAt_moveTo (h : s.Indexed) :
    (s.moveTo m).captureAt m = (s.captureAt m).moveTo m := by
  apply h.moveTo.captureAt.ext_statuses h.captureAt.moveTo (by simp) (by simp)
  intro piece aspect
  rw [h.moveTo.get?_captureAt]
  by_cases htaken : s.Taken m piece
  · rw [if_pos (taken_moveTo_iff.mpr htaken), onceCaptured?_moveTo htaken.2,
      get?_moveTo_of_ne htaken.2, h.get?_captureAt, if_pos htaken]
  · rw [if_neg fun hmoved => htaken (taken_moveTo_iff.mp hmoved), get?_moveTo, get?_moveTo,
      h.get?_captureAt, if_neg htaken]

theorem piecesOn_arrival (h : s.Indexed) :
    ((s.captureAt m).moveTo m).piecesOn m.target = [m.piece] := by
  apply (sorted_members _ m.target).eq_of_mem_iff (List.pairwise_singleton _ _)
  intro piece
  have hmem : piece ∈ ((s.captureAt m).moveTo m).piecesOn m.target ↔ _ :=
    h.captureAt.moveTo.mem_piecesOn_iff
  rw [piecesOn] at hmem
  rw [hmem, List.mem_singleton, tileOf?_moveTo]
  constructor
  · intro htile
    split at htile
    · assumption
    · exact h.clear_captureAt piece htile
  · intro hpiece
    rw [if_pos hpiece]

end Indexed

/-- Capturing where a move ends and arriving there, in this order or the other, leaves the moving piece
alone on the tile, takes every other piece off it and marks it captured, and changes nothing else. This holds
whoever owns the pieces, however many stand there, and wherever the moving piece was before. -/
theorem arrives_alone (seed : UInt64) (edits : List Edit) (c : Setting) (m : Move) :
    let s := (seeded seed).editAll edits
    let t := Effect.runAll c (.move m) [.capture, .movePiece] s
    t.piecesOn m.target = [m.piece] ∧
    t.get? m.piece .piece = some (.piece m.piece m.target) ∧
    (∀ piece ∈ s.piecesOn m.target, piece ≠ m.piece →
      t.get? piece .piece = none ∧ t.get? piece .captured = some (.captured piece)) ∧
    (∀ artifact aspect, (artifact, aspect) ≠ (m.piece, .piece) →
      (artifact ∈ s.piecesOn m.target → artifact ≠ m.piece → aspect ≠ .piece ∧ aspect ≠ .captured) →
      t.get? artifact aspect = s.get? artifact aspect) ∧
    t.extras = s.extras ∧ t.rolls = s.rolls ∧
    Effect.runAll c (.move m) [.movePiece, .capture] s = t := by
  intro s t
  have h : s.Indexed := (indexed_seeded seed).editAll edits
  have ht : t = (s.captureAt m).moveTo m := rfl
  have hfound : ∀ artifact aspect, (artifact, aspect) ≠ (m.piece, .piece) →
      t.get? artifact aspect =
        if s.Taken m artifact then s.onceCaptured? artifact aspect else s.get? artifact aspect := by
    intro artifact aspect hkey
    rw [ht, get?_moveTo, if_neg hkey, h.get?_captureAt]
  refine ⟨h.piecesOn_arrival, ?_, ?_, ?_, ?_, ?_, h.captureAt_moveTo⟩
  · rw [ht, get?_moveTo, if_pos rfl]
  · intro piece hmem hne
    have htaken : s.Taken m piece := ⟨h.mem_piecesOn_iff.mp hmem, hne⟩
    constructor
    · rw [hfound piece _ fun hkey => hne (Prod.mk.inj hkey).1, if_pos htaken]
      rfl
    · rw [hfound piece _ fun hkey => hne (Prod.mk.inj hkey).1, if_pos htaken]
      rfl
  · intro artifact aspect hkey hother
    rw [hfound artifact aspect hkey]
    split
    · rename_i htaken
      obtain ⟨hpiece, hcaptured⟩ := hother (h.mem_piecesOn_iff.mpr htaken.1) htaken.2
      cases aspect with
      | piece => exact absurd rfl hpiece
      | captured => exact absurd rfl hcaptured
      | _ => rfl
    · rfl
  · rw [ht, extras_moveTo, extras_captureAt]
  · rw [ht, rolls_moveTo, rolls_captureAt]

end BoardGame.Snapshot
