import BoardGame.Proofs.Setup.Board

/-!
Starting statuses. Against the game that building makes, a status is accepted exactly when it fits the
declarations; the starting snapshot is made exactly when all of them are and the active player is one.
-/

namespace BoardGame.Blueprint

variable {b : Blueprint} {table : ArtifactTable} {id : ArtifactId}

theorem Holds.artifactIds_nodup (h : Holds table b.artifacts) : b.artifactIds.Nodup := by
  rw [← map_id_artifacts]
  exact h.distinct

theorem Holds.dice_nodup (h : Holds table b.artifacts) : (b.dice.map Prod.fst).Nodup := by
  have hids := h.artifactIds_nodup
  unfold artifactIds at hids
  exact hids.of_append_left.of_append_left.of_append_right

theorem Holds.die?_eq_some_iff (h : Holds table b.artifacts) {die : Die} :
    (b.gameWith table).die? id = some die ↔
      ∃ d ∈ b.dice, d.1 = id ∧ ⟨{ id := d.1, kind := .dice }, d.2⟩ = die :=
  SortedMap.get?_ofList_map_eq_some_iff h.dice_nodup id die

theorem Holds.pieces_nodup (h : Holds table b.artifacts) : (b.pieces.map PieceDecl.id).Nodup := by
  have hids := h.artifactIds_nodup
  unfold artifactIds at hids
  exact hids.of_append_right

theorem Holds.piece?_eq_some_iff (h : Holds table b.artifacts) {piece : Piece} :
    (b.gameWith table).piece? id = some piece ↔ ∃ p ∈ b.pieces, p.id = id ∧ p.piece = piece :=
  SortedMap.get?_ofList_map_eq_some_iff h.pieces_nodup id piece

theorem Holds.requireKind_eq_ok_iff (h : Holds table b.artifacts) {kind : ArtifactKind}
    {name : NameKind} :
    requireKind (b.gameWith table) id kind name = .ok () ↔ id ∈ b.declaredAs kind := by
  rw [← h.isKind_declared_iff]
  exact ok_iff_of_ite

theorem Holds.artifact?_isSome_iff (h : Holds table b.artifacts) :
    ((b.gameWith table).artifact? id).isSome = true ↔ id ∈ b.artifactIds := h.contains_declared_iff

theorem Holds.checkStatus_dice_iff (h : Holds table b.artifacts) {face : Option Int64} :
    checkStatus (b.gameWith table) (.dice id face) = .ok () ↔ b.Fits (.dice id face) := by
  simp only [checkStatus, Fits]
  constructor
  · intro hok
    cases hdie : (b.gameWith table).die? id with
    | none =>
      rw [hdie] at hok
      cases hok
    | some die =>
      obtain ⟨d, hd, hid, rfl⟩ := h.die?_eq_some_iff.mp hdie
      refine ⟨d, hd, hid, ?_⟩
      rintro shown ⟨⟩
      rw [hdie] at hok
      exact ok_iff_of_ite.mp hok
  · rintro ⟨d, hd, hid, hshown⟩
    rw [h.die?_eq_some_iff.mpr ⟨d, hd, hid, rfl⟩]
    cases face with
    | none => rfl
    | some shown => exact ok_iff_of_ite.mpr (hshown shown rfl)

theorem Holds.checkStatus_custom_iff (h : Holds table b.artifacts) {name : String} {value : Value} :
    checkStatus (b.gameWith table) (.custom id name value) = .ok () ↔ id ∈ b.artifactIds := by
  rw [← h.artifact?_isSome_iff, checkStatus]
  cases (b.gameWith table).artifact? id <;> simp

theorem Holds.checkStatus_eq_ok_iff (h : Holds table b.artifacts) {s : Status} :
    checkStatus (b.gameWith table) s = .ok () ↔ b.Fits s := by
  cases s with
  | piece piece tile =>
    rw [checkStatus, bind_eq_ok_iff, Unique.exists_iff]
    exact and_congr h.requireKind_eq_ok_iff h.requireKind_eq_ok_iff
  | dice dice face => exact h.checkStatus_dice_iff
  | activePlayer player active => exact h.requireKind_eq_ok_iff
  | captured piece => exact h.requireKind_eq_ok_iff
  | custom artifact name value => exact h.checkStatus_custom_iff

theorem Holds.checkActivePlayer_eq_ok_iff (h : Holds table b.artifacts) :
    b.checkActivePlayer (b.gameWith table) = .ok () ↔
      ∀ active ∈ b.activePlayer, active ∈ b.players := by
  unfold checkActivePlayer
  cases b.activePlayer with
  | none => simp
  | some active =>
    have hkind : (b.gameWith table).isKind active .player = true ↔ active ∈ b.players :=
      h.isKind_declared_iff
    simpa using hkind

theorem Holds.exists_buildSnapshot_iff (h : Holds table b.artifacts) :
    (∃ s, b.buildSnapshot (b.gameWith table) = .ok s) ↔
      (∀ active ∈ b.activePlayer, active ∈ b.players) ∧ ∀ s ∈ b.statuses, b.Fits s := by
  simp only [buildSnapshot, bind_eq_ok_iff, Unique.exists_iff, PUnit.default_eq_unit,
    forM_eq_ok_iff, h.checkActivePlayer_eq_ok_iff, h.checkStatus_eq_ok_iff, pure, Except.pure,
    Except.ok.injEq, exists_and_left, exists_eq', and_true]

end BoardGame.Blueprint
