import BoardGame.Proofs.Setup.Artifacts

/-!
What building says about the fixed part of a game. It is made of the declared board and of a table of the
declared artifacts, and it can be made exactly when names do not repeat, pieces and relations refer to what
is declared, and every die has a face.
-/

namespace BoardGame.Blueprint

variable {b : Blueprint} {table : ArtifactTable} {g : Game}

theorem checkDirections_eq_ok_iff {seen l : List DirectionId} :
    checkDirections seen l = .ok () ↔ Fresh seen l := by
  induction l generalizing seen with
  | nil => simp [checkDirections, fresh_nil]
  | cons d rest ih =>
    rw [checkDirections, fresh_cons_iff]
    by_cases hd : d ∈ seen
    · simp [hd]
    · simp [hd, ih]

theorem checkTile_eq_ok_iff {r : Relation} {tile : ArtifactId} :
    checkTile table r tile = .ok () ↔ isKind table tile .tile = true := ok_iff_of_ite

theorem checkDirection_eq_ok_iff {directions : List DirectionId} {r : Relation} :
    checkDirection directions r = .ok () ↔ r.direction ∈ directions := ok_iff_of_ite

theorem checkFresh_eq_ok_iff {seen : List (ArtifactId × DirectionId)} {r : Relation} :
    checkFresh seen r = .ok () ↔ r.exit ∉ seen := by
  unfold checkFresh
  by_cases h : (r.source, r.direction) ∈ seen <;> simp [h, Relation.exit]

theorem checkDie_eq_ok_iff {d : ArtifactId × UInt32} : checkDie d = .ok () ↔ d.2 ≠ 0 := by
  unfold checkDie
  by_cases h : d.2 = 0 <;> simp [h]

theorem checkRelations_eq_ok_iff {directions : List DirectionId}
    {seen : List (ArtifactId × DirectionId)} {l : List Relation} :
    checkRelations table directions seen l = .ok () ↔
      (∀ r ∈ l, isKind table r.source .tile = true ∧ isKind table r.target .tile = true ∧
        r.direction ∈ directions) ∧ Fresh seen (l.map Relation.exit) := by
  induction l generalizing seen with
  | nil => simp [checkRelations, fresh_nil]
  | cons r rest ih =>
    simp only [checkRelations, bind_eq_ok_iff, Unique.exists_iff, PUnit.default_eq_unit,
      checkTile_eq_ok_iff, checkDirection_eq_ok_iff, checkFresh_eq_ok_iff, ih, List.map_cons,
      List.forall_mem_cons, fresh_cons_iff]
    constructor
    · rintro ⟨hs, ht, hd, hnew, hrest, hfresh⟩
      exact ⟨⟨⟨hs, ht, hd⟩, hrest⟩, hnew, hfresh⟩
    · rintro ⟨⟨⟨hs, ht, hd⟩, hrest⟩, hnew, hfresh⟩
      exact ⟨hs, ht, hd, hnew, hrest, hfresh⟩

theorem Holds.checkRelations_eq_ok_iff (h : Holds table b.artifacts) :
    checkRelations table b.directions [] b.relations = .ok () ↔ b.board.WellFormed := by
  rw [Blueprint.checkRelations_eq_ok_iff, fresh_of_nothing_seen_iff]
  simp only [h.isKind_declared_iff]
  constructor
  · rintro ⟨hdeclared, hexits⟩
    constructor
    · intro r hr
      exact (hdeclared r hr).1
    · intro r hr
      exact (hdeclared r hr).2.1
    · intro r hr
      exact (hdeclared r hr).2.2
    · exact hexits
  · intro hboard
    refine ⟨?_, hboard.exits_distinct⟩
    intro r hr
    exact ⟨hboard.source_declared r hr, hboard.target_declared r hr, hboard.direction_declared r hr⟩

def gameWith (b : Blueprint) (table : ArtifactTable) : Game where
  board := b.board
  players := b.players
  artifacts := table
  pieces := .ofList (b.pieces.map fun p => (p.id, p.piece))
  dice := .ofList (b.dice.map fun d => (d.1, ⟨{ id := d.1, kind := .dice }, d.2⟩))

/-- What the fixed part of a game asks of the declarations, beside the names of its artifacts. -/
structure GameFits (b : Blueprint) : Prop where
  directions_distinct : b.directions.Nodup
  pieces_fit : ∀ p ∈ b.pieces, PieceFits b.players b.directions p
  board_wellFormed : b.board.WellFormed
  dice_have_faces : ∀ d ∈ b.dice, d.2 ≠ 0

theorem buildGame_eq_ok_iff :
    b.buildGame = .ok g ↔ ∃ table, Holds table b.artifacts ∧ b.GameFits ∧ g = b.gameWith table := by
  simp only [buildGame, bind_eq_ok_iff, Unique.exists_iff, PUnit.default_eq_unit, pure, Except.pure,
    Except.ok.injEq, checkDirections_eq_ok_iff, fresh_of_nothing_seen_iff, forM_eq_ok_iff,
    checkDie_eq_ok_iff]
  constructor
  · rintro ⟨plain, hplain, hdirections, table, htable, hrelations, hdice, rfl⟩
    obtain ⟨hfit, hholds⟩ := register_artifacts_iff.mp ⟨plain, hplain, htable⟩
    have hboard := hholds.checkRelations_eq_ok_iff.mp hrelations
    exact ⟨table, hholds, ⟨hdirections, hfit, hboard, hdice⟩, rfl⟩
  · rintro ⟨table, hholds, ⟨hdirections, hfit, hboard, hdice⟩, rfl⟩
    obtain ⟨plain, hplain, htable⟩ := register_artifacts_iff.mpr ⟨hfit, hholds⟩
    have hrelations := hholds.checkRelations_eq_ok_iff.mpr hboard
    exact ⟨plain, hplain, hdirections, table, htable, hrelations, hdice, rfl⟩

theorem wellFormed_of_buildGame (h : b.buildGame = .ok g) : g.board.WellFormed := by
  obtain ⟨table, -, hfits, rfl⟩ := buildGame_eq_ok_iff.mp h
  exact hfits.board_wellFormed

end BoardGame.Blueprint
