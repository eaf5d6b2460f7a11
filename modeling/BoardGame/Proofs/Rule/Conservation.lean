import BoardGame.Proofs.Effect.Placement
import BoardGame.Proofs.Rule.Check

/-!
Rules that conserve the pieces. A rule is found valid on one snapshot and may be carried out on a later
one, which other rules have left in the course of the same event. What its guard saw then still holds as
far as its effects need it: the moving piece is still on the board, and a tile that was empty holds at
most the moving piece.
-/

namespace BoardGame

open Snapshot

def Setting.StaysOnBoard (c : Setting) : Prop :=
  ∀ piece source target route, c.route? piece source target = some route →
    target ∈ c.game.board.tiles

theorem Verdict.isValid_check_iff {ok : Bool} {reason : String} :
    (Verdict.check ok reason).isValid = true ↔ ok = true := by
  cases ok with
  | false => exact iff_of_false Bool.false_ne_true Bool.false_ne_true
  | true => exact iff_of_true rfl rfl

namespace EventTest

variable {c : Setting} {s : Snapshot} {e : Event} {m : Move}

theorem isValid_onSource_iff : (onSource.judge c s (.move m)).isValid = true ↔
    s.tileOf? m.piece = some m.source := by
  change (MoveTest.onSource s m).isValid = true ↔ _
  unfold MoveTest.onSource
  cases s.tileOf? m.piece with
  | none => exact iff_of_false Bool.false_ne_true (by simp)
  | some tile => rw [Verdict.isValid_check_iff, decide_eq_true_eq, Option.some.injEq]

theorem exists_move_of_onSource (h : (onSource.judge c s e).isValid = true) :
    ∃ m, e = .move m ∧ s.tileOf? m.piece = some m.source := by
  cases e with
  | move m => exact ⟨m, rfl, isValid_onSource_iff.mp h⟩
  | _ => cases h

theorem isValid_followsMovement_iff : (followsMovement.judge c s (.move m)).isValid = true ↔
    c.route? m.piece m.source m.target = some m.route := by
  change (MoveTest.followsMovement c m).isValid = true ↔ _
  unfold MoveTest.followsMovement
  cases c.route? m.piece m.source m.target with
  | none => exact iff_of_false Bool.false_ne_true (by simp)
  | some route => rw [Verdict.isValid_check_iff, decide_eq_true_eq, Option.some.injEq]

theorem clear_of_targetEmpty (hs : s.Indexed)
    (h : (targetEmpty.judge c s (.move m)).isValid = true) : s.Clear m := by
  have hempty : s.isOccupied m.target = false := by
    have hcheck : (!s.isOccupied m.target) = true := Verdict.isValid_check_iff.mp h
    rwa [Bool.not_eq_true'] at hcheck
  intro piece htile
  have hmem : piece ∈ s.piecesOn m.target := hs.mem_piecesOn_iff.mpr htile
  have hoccupied : s.isOccupied m.target = true := isOccupied_iff.mpr (List.ne_nil_of_mem hmem)
  rw [hempty] at hoccupied
  cases hoccupied

end EventTest

/-- The guard of a rule answers for its effects, which are built-in ones: if one of them touches the
pieces, the guard is valid only for a move from where the piece stands along one of its routes; and if it
moves the piece, then only to an empty tile, or else what stands there is captured. -/
structure RuleHead.Covers (h : RuleHead) (c : Setting) (effects : List Effect) : Prop where
  builtin : ∀ x, Effect.custom x ∉ effects
  on_route : Effect.movePiece ∈ effects ∨ Effect.capture ∈ effects →
    ∀ s e, s.Indexed → h.Permits c s e →
      (EventTest.onSource.judge c s e).isValid = true ∧
      (EventTest.followsMovement.judge c s e).isValid = true
  makes_room : Effect.movePiece ∈ effects → Effect.capture ∈ effects ∨
    ∀ s e, s.Indexed → h.Permits c s e → (EventTest.targetEmpty.judge c s e).isValid = true

theorem RuleHead.Permits.judge {h : RuleHead} {c : Setting} {s : Snapshot} {e : Event}
    {t : EventTest} {children : List EventGuard} (hpermits : h.Permits c s e)
    (hguard : h.guard = .all children) (ht : .test t ∈ children) :
    (t.judge c s e).isValid = true := by
  rw [RuleHead.Permits, hguard, EventGuard.ask, Guard.value_run_all, Verdict.isValid_all_iff,
    List.forall_mem_map] at hpermits
  exact hpermits _ ht

/-- Listing the tests that its effects rely on makes a guard answer for them. -/
theorem RuleHead.covers_of_tests {h : RuleHead} {effects : List Effect} {children : List EventGuard}
    (c : Setting) (hguard : h.guard = .all children) (hbuiltin : ∀ x, Effect.custom x ∉ effects)
    (hsource : .test .onSource ∈ children) (hroute : .test .followsMovement ∈ children)
    (hroom : Effect.capture ∈ effects ∨ .test .targetEmpty ∈ children) : h.Covers c effects :=
  ⟨hbuiltin,
    fun _ _ _ _ hpermits => ⟨hpermits.judge hguard hsource, hpermits.judge hguard hroute⟩,
    fun _ => hroom.imp_right fun hempty _ _ _ hpermits => hpermits.judge hguard hempty⟩

namespace Rule

/-- Every simple rule within a rule is covered by its own guard. -/
def Covered (c : Setting) (r : Rule) : Prop :=
  ∀ head effects, simple head effects ∈ r.withDescendants → head.Covers c effects

/-- Once found valid, a rule keeps the pieces in order, even if it is carried out only after others. -/
def Conserves (c : Setting) (e : Event) (r : Rule) : Prop :=
  ∀ s t, s.Indexed → t.Orderly c.game → Follows e s t → (check c s e r).value.isValid = true →
    (apply c e r t).value.Orderly c.game ∧ Follows e t (apply c e r t).value

variable {c : Setting} {e : Event} {head : RuleHead} {effects : List Effect} {children : List Rule}
  {r : Rule}

theorem mem_descendants_iff :
    r ∈ descendants children ↔ ∃ child ∈ children, r ∈ child.withDescendants := by
  induction children with
  | nil => simp [descendants]
  | cons first rest ih => rw [descendants, List.mem_append, ih, List.exists_mem_cons_iff]

section Simple

variable {Q : RuleHead → List Effect → Prop}

theorem forall_simple_simple_iff :
    (∀ head' effects', simple head' effects' ∈ (simple head effects).withDescendants →
      Q head' effects') ↔ Q head effects := by
  constructor
  · intro h
    exact h head effects (List.mem_singleton_self _)
  · rintro h head' effects' hsimple
    cases List.mem_singleton.mp hsimple
    exact h

theorem forall_simple_composite_iff (hcomposite : ∀ head effects, simple head effects ≠ r)
    (hwithin : r.withDescendants = r :: descendants children) :
    (∀ head effects, simple head effects ∈ r.withDescendants → Q head effects) ↔
      ∀ child ∈ children, ∀ head effects, simple head effects ∈ child.withDescendants →
        Q head effects := by
  simp only [hwithin, List.mem_cons, hcomposite, false_or, mem_descendants_iff]
  constructor
  · intro h child hchild head effects hsimple
    exact h head effects ⟨child, hchild, hsimple⟩
  · rintro h head effects ⟨child, hchild, hsimple⟩
    exact h child hchild head effects hsimple

end Simple

theorem covered_simple_iff : (simple head effects).Covered c ↔ head.Covers c effects :=
  forall_simple_simple_iff

theorem covered_all_iff : (all head children).Covered c ↔ ∀ r ∈ children, r.Covered c :=
  forall_simple_composite_iff (fun _ _ => by simp) rfl

theorem covered_any_iff : (any head children).Covered c ↔ ∀ r ∈ children, r.Covered c :=
  forall_simple_composite_iff (fun _ _ => by simp) rfl

theorem conserves_simple (hroutes : c.StaysOnBoard) (hcovers : head.Covers c effects) :
    (simple head effects).Conserves c e := by
  intro s t hs ht hst hvalid
  obtain ⟨-, hpermits⟩ := isValid_check_simple.mp hvalid
  have hvalue : (apply c e (simple head effects) t).value = Effect.runAll c e effects t := rfl
  rw [hvalue]
  by_cases htouch : Effect.movePiece ∈ effects ∨ Effect.capture ∈ effects
  · obtain ⟨hsource, hroute⟩ := hcovers.on_route htouch s e hs hpermits
    obtain ⟨m, rfl, hplaced⟩ := EventTest.exists_move_of_onSource hsource
    have hmover : (t.tileOf? m.piece).isSome = true :=
      hst.mover_placed m rfl (Option.isSome_of_mem hplaced)
    have htarget : m.target ∈ c.game.board.tiles :=
      hroutes _ _ _ _ (EventTest.isValid_followsMovement_iff.mp hroute)
    obtain ⟨hunderway, hfollows, hclear⟩ :=
      Effect.underway_runAll (c := c) hcovers.builtin (ht.underway hmover htarget)
    refine ⟨hunderway.orderly (hclear ?_), hfollows⟩
    -- without a capture the tile was empty when the guard was asked, and nobody else has come since
    by_cases hcapture : Effect.capture ∈ effects
    · exact Or.inr hcapture
    · have hmove : Effect.movePiece ∈ effects := htouch.resolve_right hcapture
      have hempty := (hcovers.makes_room hmove).resolve_left hcapture s _ hs hpermits
      exact Or.inl (hst.clear m rfl (EventTest.clear_of_targetEmpty hs hempty))
  · obtain ⟨hmove, hcapture⟩ := not_or.mp htouch
    obtain ⟨hindexed, hsame⟩ :=
      Effect.samePlaces_runAll (c := c) hcovers.builtin (fun _ _ => ⟨hmove, hcapture⟩) ht.toIndexed
    exact ⟨hsame.orderly hindexed ht, hsame.follows⟩

theorem orderly_applyAll {s t : Snapshot} (hchildren : ∀ r ∈ children, r.Conserves c e)
    (hvalid : ∀ r ∈ children, (check c s e r).value.isValid = true) (hs : s.Indexed)
    (ht : t.Orderly c.game) (hst : Follows e s t) :
    (applyAll c e children t).value.Orderly c.game ∧
      Follows e t (applyAll c e children t).value := by
  induction children generalizing t with
  | nil => exact ⟨ht, Follows.refl e t⟩
  | cons r rest ih =>
    obtain ⟨hr, hrest⟩ := List.forall_mem_cons.mp hchildren
    obtain ⟨hrvalid, hrestvalid⟩ := List.forall_mem_cons.mp hvalid
    obtain ⟨hnext, hfollows⟩ := hr s t hs ht hst hrvalid
    obtain ⟨hlast, hlater⟩ := ih hrest hrestvalid hnext (hst.trans hfollows)
    exact ⟨hlast, hfollows.trans hlater⟩

/-- The child that is carried out is found valid on the very snapshot that it changes. -/
theorem orderly_applyFirst {t : Snapshot} (hchildren : ∀ r ∈ children, r.Conserves c e)
    (ht : t.Orderly c.game) :
    (applyFirst c e children t).value.Orderly c.game ∧
      Follows e t (applyFirst c e children t).value := by
  induction children with
  | nil => exact ⟨ht, Follows.refl e t⟩
  | cons r rest ih =>
    obtain ⟨hr, hrest⟩ := List.forall_mem_cons.mp hchildren
    rw [applyFirst, Noted.value_bind]
    split
    · rename_i hvalid
      exact hr t t ht.toIndexed ht (Follows.refl e t) hvalid
    · exact ih hrest

theorem Covered.conserves (hroutes : c.StaysOnBoard) (h : r.Covered c) : r.Conserves c e := by
  induction r with
  | simple head effects => exact conserves_simple hroutes (covered_simple_iff.mp h)
  | all head children ih =>
    intro s t hs ht hst hvalid
    obtain ⟨-, -, hvalid⟩ := isValid_check_all.mp hvalid
    exact orderly_applyAll (fun r hr => ih r hr (covered_all_iff.mp h r hr)) hvalid hs ht hst
  | any head children ih =>
    intro s t _ ht _ _
    exact orderly_applyFirst (fun r hr => ih r hr (covered_any_iff.mp h r hr)) ht

end Rule

end BoardGame
