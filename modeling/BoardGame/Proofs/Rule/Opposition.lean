import BoardGame.Proofs.Effect.Capture
import BoardGame.Proofs.Rule.Conservation
import BoardGame.Setup.Build

/-!
Capturing where an opponent stands. The test looks for one piece of another owner among those that a move
meets; a capture takes all that it meets. So what the test endorses spares the pieces of one's own side
unless the move meets some of them in the company of others; with no more than one piece to a tile that does
not happen.
-/

namespace BoardGame

namespace Snapshot

/-- The pieces that a move meets on the tile where it ends. -/
def met (s : Snapshot) (m : Move) : List ArtifactId := (s.piecesOn m.target).filter (· ≠ m.piece)

/-- A move meets pieces of the same owner as the moving one together with others. -/
def MixedCompany (g : Game) (m : Move) (s : Snapshot) : Prop :=
  (∃ p ∈ s.met m, g.ownerOf? p = g.ownerOf? m.piece) ∧
    ∃ p ∈ s.met m, g.ownerOf? p ≠ g.ownerOf? m.piece

instance (g : Game) (m : Move) (s : Snapshot) : Decidable (s.MixedCompany g m) :=
  inferInstanceAs (Decidable (_ ∧ _))

variable {g : Game} {m : Move} {s : Snapshot} {piece : ArtifactId} {aspect : Aspect}

theorem ne_of_mem_met (h : piece ∈ s.met m) : piece ≠ m.piece :=
  of_decide_eq_true (List.mem_filter.mp h).2

theorem get?_arrival_of_met (h : piece ∈ s.met m) :
    ((s.captureAt m).moveTo m).get? piece aspect = s.onceCaptured? piece aspect := by
  rw [get?_moveTo_of_ne (ne_of_mem_met h)]
  exact get?_foldl_capture.trans (if_pos h)

theorem get?_captured_arrival_of_not_met (h : piece ∉ s.met m) :
    ((s.captureAt m).moveTo m).get? piece .captured = s.get? piece .captured := by
  rw [get?_captured_moveTo]
  exact get?_foldl_capture.trans (if_neg h)

/-- Where pieces do not share tiles, a move meets one of them at most. -/
theorem Orderly.not_mixedCompany (h : s.Orderly g) : ¬ s.MixedCompany g m := by
  rintro ⟨⟨p, hp, hown⟩, q, hq, hother⟩
  have hplace : ∀ x ∈ s.met m, s.tileOf? x = some m.target := fun x hx =>
    h.mem_piecesOn_iff.mp (List.mem_filter.mp hx).1
  have hsame : p = q := h.alone p q m.target (hplace p hp) (hplace q hq)
  exact hother (hsame ▸ hown)

theorem not_mixedCompany_iff (hopposed : ∃ p ∈ s.met m, g.ownerOf? p ≠ g.ownerOf? m.piece) :
    ¬ s.MixedCompany g m ↔ ∀ p ∈ s.met m, g.ownerOf? p ≠ g.ownerOf? m.piece := by
  constructor
  · intro halone p hp hown
    exact halone ⟨⟨p, hp, hown⟩, hopposed⟩
  · rintro hnone ⟨⟨p, hp, hown⟩, -⟩
    exact hnone p hp hown

end Snapshot

namespace MoveTest

open Snapshot

variable {c : Setting} {s : Snapshot} {m : Move}

/-- The test has three answers: nothing is met, something of another owner is, or only the same owner's. -/
theorem targetOpposed_cases (c : Setting) (s : Snapshot) (m : Move) :
    (s.met m = [] ∧ targetOpposed c s m = .ignoring "destination is empty") ∨
    ((∃ p ∈ s.met m, c.game.ownerOf? p ≠ c.game.ownerOf? m.piece) ∧ targetOpposed c s m = .valid) ∨
    (s.met m ≠ [] ∧ (∀ p ∈ s.met m, c.game.ownerOf? p = c.game.ownerOf? m.piece) ∧
      targetOpposed c s m = .fail (m.target ++ " holds a friendly piece")) := by
  have hunfold : targetOpposed c s m = if (s.met m).isEmpty then .ignoring "destination is empty"
      else .check ((s.met m).any fun p => c.game.ownerOf? p ≠ c.game.ownerOf? m.piece)
        (m.target ++ " holds a friendly piece") := rfl
  by_cases hempty : s.met m = []
  · refine Or.inl ⟨hempty, ?_⟩
    rw [hunfold, hempty]
    rfl
  rw [if_neg (mt List.isEmpty_iff.mp hempty)] at hunfold
  by_cases hopposed : ∃ p ∈ s.met m, c.game.ownerOf? p ≠ c.game.ownerOf? m.piece
  · have hany : (s.met m).any (fun p => c.game.ownerOf? p ≠ c.game.ownerOf? m.piece) = true := by
      simpa using hopposed
    refine Or.inr (Or.inl ⟨hopposed, ?_⟩)
    rw [hunfold, hany]
    rfl
  · have hsame : ∀ p ∈ s.met m, c.game.ownerOf? p = c.game.ownerOf? m.piece := by
      intro p hp
      by_contra hdiffers
      exact hopposed ⟨p, hp, hdiffers⟩
    have hnone : (s.met m).any (fun p => c.game.ownerOf? p ≠ c.game.ownerOf? m.piece) = false := by
      rw [List.any_eq_false]
      intro p hp
      simp [hsame p hp]
    refine Or.inr (Or.inr ⟨hempty, hsame, ?_⟩)
    rw [hunfold, hnone]
    rfl

theorem isValid_targetOpposed_iff : (targetOpposed c s m).isValid = true ↔
    ∃ p ∈ s.met m, c.game.ownerOf? p ≠ c.game.ownerOf? m.piece := by
  rcases targetOpposed_cases c s m with
    ⟨hempty, hverdict⟩ | ⟨hopposed, hverdict⟩ | ⟨-, hsame, hverdict⟩
  · rw [hverdict, hempty]
    simp [Verdict.isValid, Verdict.ignoring]
  · rw [hverdict]
    exact iff_of_true rfl hopposed
  · rw [hverdict]
    refine iff_of_false Bool.false_ne_true ?_
    rintro ⟨p, hp, hdiffers⟩
    exact hdiffers (hsame p hp)

theorem targetOpposed_of_same_owner (hmet : s.met m ≠ [])
    (hsame : ∀ p ∈ s.met m, c.game.ownerOf? p = c.game.ownerOf? m.piece) :
    targetOpposed c s m = .fail (m.target ++ " holds a friendly piece") := by
  rcases targetOpposed_cases c s m with
    ⟨hempty, -⟩ | ⟨⟨p, hp, hdiffers⟩, -⟩ | ⟨-, -, hverdict⟩
  · exact absurd hempty hmet
  · exact absurd (hsame p hp) hdiffers
  · exact hverdict

end MoveTest

def RuleHead.Requires (h : RuleHead) (t : EventTest) : Prop :=
  ∀ c s e, h.Permits c s e → (t.judge c s e).isValid = true

namespace Rule

open Snapshot

variable {c : Setting} {s : Snapshot} {m : Move} {owner : ArtifactId}

/-- The test of an opposed move endorses it as soon as one piece of another owner is met. A rule that
requires it and captures on arrival spares all pieces of the moving side, unless the move meets some of them
in the company of others: then they are taken off the board and marked captured as well. Where pieces do not
share tiles, they are spared. -/
theorem opposed_capture_spares_unless_mixed (howner : c.game.ownerOf? m.piece = some owner) :
    let verdict := EventTest.targetOpposed.judge c s (.move m)
    (verdict.isValid = true ↔ ∃ p ∈ s.met m, c.game.ownerOf? p ≠ some owner) ∧
    (s.met m ≠ [] → (∀ p ∈ s.met m, c.game.ownerOf? p = some owner) →
      verdict = .fail (m.target ++ " holds a friendly piece")) ∧
    (verdict.isValid = true →
      ((∀ p ∈ s.met m, c.game.ownerOf? p ≠ some owner) ↔ ¬ s.MixedCompany c.game m)) ∧
    (s.Orderly c.game → ¬ s.MixedCompany c.game m) ∧
    ∀ head : RuleHead, head.Requires .targetOpposed →
      let rule := Rule.simple head [.capture, .movePiece]
      (rule.check c s (.move m)).value.isValid = true →
      let t := (rule.apply c (.move m) s).value
      (¬ s.MixedCompany c.game m →
        ∀ p, c.game.ownerOf? p = some owner → t.get? p .captured = s.get? p .captured) ∧
      (s.MixedCompany c.game m → ∃ p ∈ s.met m, c.game.ownerOf? p = some owner ∧
        t.get? p .piece = none ∧ t.get? p .captured = some (.captured p)) := by
  intro verdict
  rw [← howner]
  have hvalid : verdict.isValid = true ↔ ∃ p ∈ s.met m, c.game.ownerOf? p ≠ c.game.ownerOf? m.piece :=
    MoveTest.isValid_targetOpposed_iff
  refine ⟨hvalid, MoveTest.targetOpposed_of_same_owner, fun hopposed => ?_,
    Orderly.not_mixedCompany, ?_⟩
  · exact (not_mixedCompany_iff (hvalid.mp hopposed)).symm
  · intro head hrequires rule hcheck t
    have ht : t = (s.captureAt m).moveTo m := rfl
    have hopposed : verdict.isValid = true :=
      hrequires c s (.move m) (isValid_check_simple.mp hcheck).2
    constructor
    · intro halone p hown
      have hfree : p ∉ s.met m := fun hp =>
        (not_mixedCompany_iff (hvalid.mp hopposed)).mp halone p hp hown
      rw [ht, get?_captured_arrival_of_not_met hfree]
    · rintro ⟨⟨p, hp, hown⟩, -⟩
      refine ⟨p, hp, hown, ?_, ?_⟩
      · rw [ht, get?_arrival_of_met hp]
        rfl
      · rw [ht, get?_arrival_of_met hp]
        rfl

def storm : Rule :=
  .simple { id := "storm", type := some .move, guard := .all [.test .onSource, .test .targetOpposed] }
    [.capture, .movePiece]

theorem storm_requires_opponent : storm.head.Requires .targetOpposed :=
  fun _ _ _ hpermits => hpermits.judge rfl (by simp)

end Rule

namespace Blueprint

/-- White's rook one step away from a tile that a pawn of its own side shares with a black knight. -/
def melee : Blueprint where
  tiles := ["b1", "b2"]
  directions := ["up"]
  relations := [⟨"b1", "b2", "up", 1⟩]
  players := ["white", "black"]
  activePlayer := some "white"
  pieces := [
    { id := "rook", owner := some "white", movements := [MovementDecl.direction "up"] },
    { id := "pawn", owner := some "white" },
    { id := "knight", owner := some "black" }]
  statuses := [.piece "rook" "b1", .piece "pawn" "b2", .piece "knight" "b2"]
  phases := [.leaf { id := "storming", rule := Rule.storm }]

def charge : Move :=
  { piece := "rook", source := "b1", target := "b2", route := ⟨⟨"b1", "b2", "up", 1⟩, [], rfl⟩ }

/-- The move is endorsed although a piece of the moving side stands where it ends, and takes that piece. -/
theorem melee_takes_own : ∃ start next, melee.build = .ok start ∧
    start.engine.game.ownerOf? "rook" = some "white" ∧
    (EventTest.targetOpposed.judge start.engine.setting start.snapshot (.move charge)).isValid = true ∧
    "pawn" ∈ start.snapshot.piecesOn "b2" ∧ start.engine.game.ownerOf? "pawn" = some "white" ∧
    start.snapshot.isCaptured "pawn" = false ∧
    (start.handle 1 (.move charge)).value = .ok next ∧ next.snapshot.isCaptured "pawn" = true :=
  ⟨_, _, rfl, by decide +kernel, by decide +kernel, by decide +kernel, by decide +kernel,
    by decide +kernel, rfl, by decide +kernel⟩

/-- Without the pawn on that tile, the same move takes the knight and spares the pawn; with it, both are
taken. -/
theorem melee_spares_pawn_elsewhere : ∃ start, melee.build = .ok start ∧
    let c := start.engine.setting
    let apart := start.snapshot.putAll [.piece "pawn" "b1"]
    c.game.ownerOf? charge.piece = some "white" ∧ Rule.storm.head.Requires .targetOpposed ∧
    (Rule.storm.check c apart (.move charge)).value.isValid = true ∧
    (Rule.storm.check c start.snapshot (.move charge)).value.isValid = true ∧
    ¬ apart.MixedCompany c.game charge ∧ start.snapshot.MixedCompany c.game charge ∧
    (Rule.storm.apply c (.move charge) apart).value.get? "pawn" .captured =
      apart.get? "pawn" .captured ∧
    ∃ p ∈ start.snapshot.met charge, c.game.ownerOf? p = some "white" ∧
      (Rule.storm.apply c (.move charge) start.snapshot).value.get? p .captured =
        some (.captured p) := by
  have hrun : ∃ start, melee.build = .ok start ∧
      let c := start.engine.setting
      let apart := start.snapshot.putAll [.piece "pawn" "b1"]
      c.game.ownerOf? charge.piece = some "white" ∧ c.game.ownerOf? "pawn" = some "white" ∧
      (Rule.storm.check c apart (.move charge)).value.isValid = true ∧
      (Rule.storm.check c start.snapshot (.move charge)).value.isValid = true ∧
      ¬ apart.MixedCompany c.game charge ∧ start.snapshot.MixedCompany c.game charge :=
    ⟨_, rfl, by decide +kernel, by decide +kernel, by decide +kernel, by decide +kernel,
      by decide +kernel, by decide +kernel⟩
  obtain ⟨start, hbuild, howner, hpawn, hapart, htogether, halone, hmixed⟩ := hrun
  have hrequires := Rule.storm_requires_opponent
  obtain ⟨-, -, -, -, hspares⟩ := Rule.opposed_capture_spares_unless_mixed
    (s := start.snapshot.putAll [.piece "pawn" "b1"]) howner
  obtain ⟨-, -, -, -, htakes⟩ := Rule.opposed_capture_spares_unless_mixed (s := start.snapshot) howner
  obtain ⟨p, hp, hown, -, hcaptured⟩ := (htakes _ hrequires htogether).2 hmixed
  exact ⟨start, hbuild, howner, hrequires, hapart, htogether, halone, hmixed,
    (hspares _ hrequires hapart).1 halone "pawn" hpawn, p, hp, hown, hcaptured⟩

end Blueprint

end BoardGame
