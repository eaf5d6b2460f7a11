import BoardGame.Proofs.Setup.Checks
import BoardGame.Proofs.Setup.WellFormed
import Mathlib.Data.List.Induction

/-!
Registering artifacts. A table holds a list of artifacts when it finds exactly these, each under its own
name, and no two of them share one. Registering succeeds exactly when there is a table that also holds what
is registered, and gives that table. Pieces refer to players while the table is still being filled; since no
piece is a player, what they see is as good as the finished table.
-/

namespace BoardGame.Blueprint

structure Holds (table : ArtifactTable) (l : List Artifact) : Prop where
  distinct : (l.map Artifact.id).Nodup
  get?_iff : ∀ id a, table.get? id = some a ↔ a ∈ l ∧ a.id = id

variable {table next : ArtifactTable} {l m : List Artifact} {a : Artifact} {id : ArtifactId}
  {kind : ArtifactKind}

theorem holds_empty : Holds .empty [] := by
  constructor
  · exact List.nodup_nil
  · intro id a
    simp

namespace Holds

theorem contains_iff (h : Holds table l) : table.contains id = true ↔ id ∈ l.map Artifact.id := by
  unfold SortedMap.contains
  rw [Option.isSome_iff_exists, List.mem_map]
  exact exists_congr fun a => h.get?_iff id a

theorem isKind_iff (h : Holds table l) :
    isKind table id kind = true ↔ ∃ a ∈ l, a.id = id ∧ a.kind = kind := by
  unfold isKind
  constructor
  · intro hkind
    split at hkind
    · rename_i a hfound
      obtain ⟨ha, hid⟩ := (h.get?_iff id a).mp hfound
      exact ⟨a, ha, hid, of_decide_eq_true hkind⟩
    · cases hkind
  · rintro ⟨a, ha, hid, hkind⟩
    rw [(h.get?_iff id a).mpr ⟨ha, hid⟩]
    exact decide_eq_true hkind

theorem unique (h : Holds table l) (hnext : Holds next l) : table = next := by
  apply SortedMap.ext_get?
  intro id
  apply Option.ext
  intro a
  rw [h.get?_iff, hnext.get?_iff]

theorem insert (h : Holds table l) (hnew : a.id ∉ l.map Artifact.id) :
    Holds (table.insert a.id a) (l ++ [a]) := by
  constructor
  · rw [List.map_append]
    refine List.Nodup.append h.distinct (List.nodup_singleton _) ?_
    exact List.disjoint_singleton.mpr hnew
  · intro id found
    rw [SortedMap.get?_insert, List.mem_append, List.mem_singleton]
    by_cases hid : id = a.id
    · subst hid
      rw [if_pos rfl, Option.some.injEq]
      constructor
      · rintro rfl
        exact ⟨Or.inr rfl, rfl⟩
      · rintro ⟨hfound | rfl, hid⟩
        · exact absurd (List.mem_map.mpr ⟨found, hfound, hid⟩) hnew
        · rfl
    · rw [if_neg hid, h.get?_iff]
      constructor
      · rintro ⟨hfound, rfl⟩
        exact ⟨Or.inl hfound, rfl⟩
      · rintro ⟨hfound | rfl, rfl⟩
        · exact ⟨hfound, rfl⟩
        · exact absurd rfl hid

end Holds

theorem exists_holds_iff : (∃ table, Holds table l) ↔ (l.map Artifact.id).Nodup := by
  constructor
  · rintro ⟨table, h⟩
    exact h.distinct
  · intro hdistinct
    induction l using List.reverseRecOn with
    | nil => exact ⟨.empty, holds_empty⟩
    | append_singleton l a ih =>
      rw [List.map_append] at hdistinct
      obtain ⟨hl, -, hdisjoint⟩ := List.nodup_append'.mp hdistinct
      obtain ⟨table, h⟩ := ih hl
      exact ⟨_, h.insert (List.disjoint_singleton.mp hdisjoint)⟩

theorem register_eq_ok_iff :
    register table a = .ok next ↔ table.contains a.id = false ∧ next = table.insert a.id a := by
  unfold register
  by_cases h : table.contains a.id = true
  · simp [h]
  · simp [h, eq_comm]

theorem Holds.register_eq_ok_iff (h : Holds table l) :
    register table a = .ok next ↔ Holds next (l ++ [a]) := by
  rw [Blueprint.register_eq_ok_iff, Bool.eq_false_iff, ne_eq, h.contains_iff]
  constructor
  · rintro ⟨hnew, rfl⟩
    exact h.insert hnew
  · intro hnext
    have hnew : a.id ∉ l.map Artifact.id := by
      have hdistinct := hnext.distinct
      rw [List.map_append] at hdistinct
      exact List.disjoint_singleton.mp (List.nodup_append'.mp hdistinct).2.2
    exact ⟨hnew, hnext.unique (h.insert hnew)⟩

theorem Holds.of_append (h : Holds next (l ++ m)) : ∃ table, Holds table l := by
  have hdistinct := h.distinct
  rw [List.map_append] at hdistinct
  exact exists_holds_iff.mpr hdistinct.of_append_left

theorem Holds.registerAll_eq_ok_iff (h : Holds table l) :
    m.foldlM register table = .ok next ↔ Holds next (l ++ m) := by
  induction m generalizing table l with
  | nil =>
    rw [List.append_nil]
    constructor
    · rintro ⟨⟩
      exact h
    · intro hnext
      rw [h.unique hnext]
      rfl
  | cons a rest ih =>
    rw [List.foldlM_cons, bind_eq_ok_iff, List.append_cons]
    constructor
    · rintro ⟨middle, ha, hrest⟩
      exact (ih (h.register_eq_ok_iff.mp ha)).mp hrest
    · intro hnext
      obtain ⟨middle, hmiddle⟩ := hnext.of_append
      exact ⟨middle, h.register_eq_ok_iff.mpr hmiddle, (ih hmiddle).mpr hnext⟩

section Pieces

variable {players : List ArtifactId} {directions : List DirectionId} {p : PieceDecl}

theorem checkMovement_eq_ok_iff {referrer : Referrer} {move : MovementDecl} :
    checkMovement directions referrer move = .ok () ↔ ∀ d ∈ move.directions, d ∈ directions := by
  unfold checkMovement
  cases hmissing : move.directions.find? (· ∉ directions) with
  | none => simpa using hmissing
  | some d =>
    have hd : d ∈ move.directions := List.mem_of_find?_eq_some hmissing
    have hundeclared : d ∉ directions := by simpa using List.find?_some hmissing
    simp only [reduceCtorEq, false_iff]
    intro hall
    exact hundeclared (hall d hd)

/-- What a piece refers to is declared. -/
def PieceFits (players : List ArtifactId) (directions : List DirectionId) (p : PieceDecl) : Prop :=
  (∀ owner ∈ p.owner, owner ∈ players) ∧ ∀ move ∈ p.movements, ∀ d ∈ move.directions, d ∈ directions

/-- A list of artifacts in which exactly the given names are those of players. -/
def PlayersAre (players : List ArtifactId) (l : List Artifact) : Prop :=
  ∀ id, (∃ a ∈ l, a.id = id ∧ a.kind = .player) ↔ id ∈ players

theorem PlayersAre.append_piece (h : PlayersAre players l) : PlayersAre players (l ++ [p.artifact]) := by
  intro id
  rw [← h id]
  constructor
  · rintro ⟨a, ha, hid, hkind⟩
    rcases List.mem_append.mp ha with ha | ha
    · exact ⟨a, ha, hid, hkind⟩
    · obtain rfl := List.mem_singleton.mp ha
      cases hkind
  · rintro ⟨a, ha, hid, hkind⟩
    exact ⟨a, List.mem_append_left _ ha, hid, hkind⟩

theorem Holds.checkOwner_eq_ok_iff (h : Holds table l) (hplayers : PlayersAre players l) :
    checkOwner table p = .ok () ↔ ∀ owner ∈ p.owner, owner ∈ players := by
  unfold checkOwner
  cases p.owner with
  | none => simp
  | some owner => simp [h.isKind_iff, hplayers owner]

theorem Holds.registerPiece_eq_ok_iff (h : Holds table l) (hplayers : PlayersAre players l) :
    registerPiece directions table p = .ok next ↔
      PieceFits players directions p ∧ Holds next (l ++ [p.artifact]) := by
  simp only [registerPiece, bind_eq_ok_iff, Unique.exists_iff, PUnit.default_eq_unit,
    forM_eq_ok_iff, checkMovement_eq_ok_iff, h.checkOwner_eq_ok_iff hplayers, h.register_eq_ok_iff,
    PieceFits, and_assoc]

/-- Registering pieces one by one, each of which may name players that are in the table by then. -/
theorem Holds.registerPieces_eq_ok_iff {pieces : List PieceDecl} (h : Holds table l)
    (hplayers : PlayersAre players l) :
    pieces.foldlM (registerPiece directions) table = .ok next ↔
      (∀ p ∈ pieces, PieceFits players directions p) ∧
        Holds next (l ++ pieces.map PieceDecl.artifact) := by
  induction pieces generalizing table l with
  | nil =>
    rw [List.map_nil]
    simpa using h.registerAll_eq_ok_iff (m := [])
  | cons p rest ih =>
    rw [List.foldlM_cons, bind_eq_ok_iff, List.forall_mem_cons, List.map_cons, List.append_cons]
    constructor
    · rintro ⟨middle, hp, hrest⟩
      obtain ⟨hfits, hmiddle⟩ := (h.registerPiece_eq_ok_iff hplayers).mp hp
      obtain ⟨hfit, hnext⟩ := (ih hmiddle hplayers.append_piece).mp hrest
      exact ⟨⟨hfits, hfit⟩, hnext⟩
    · rintro ⟨⟨hfits, hfit⟩, hnext⟩
      obtain ⟨middle, hmiddle⟩ := hnext.of_append
      refine ⟨middle, (h.registerPiece_eq_ok_iff hplayers).mpr ⟨hfits, hmiddle⟩, ?_⟩
      exact (ih hmiddle hplayers.append_piece).mpr ⟨hfit, hnext⟩

end Pieces

section Declared

variable {b : Blueprint}

/-- All artifacts, in the order in which they are registered. -/
def artifacts (b : Blueprint) : List Artifact := b.plainArtifacts ++ b.pieces.map PieceDecl.artifact

theorem map_id_artifacts : b.artifacts.map Artifact.id = b.artifactIds := by
  simp [artifacts, plainArtifacts, artifactIds, PieceDecl.artifact, Function.comp_def]

theorem playersAre_plainArtifacts : PlayersAre b.players b.plainArtifacts := by
  intro id
  simp [plainArtifacts, or_and_right, exists_or]

/-- Both rounds of registering together: all artifacts are held, and what the pieces refer to is
declared. -/
theorem register_artifacts_iff :
    (∃ plain, b.plainArtifacts.foldlM register .empty = .ok plain ∧
      b.pieces.foldlM (registerPiece b.directions) plain = .ok table) ↔
      (∀ p ∈ b.pieces, PieceFits b.players b.directions p) ∧ Holds table b.artifacts := by
  constructor
  · rintro ⟨plain, hplain, htable⟩
    have hholds : Holds plain b.plainArtifacts := holds_empty.registerAll_eq_ok_iff.mp hplain
    exact (hholds.registerPieces_eq_ok_iff playersAre_plainArtifacts).mp htable
  · rintro ⟨hfit, htable⟩
    obtain ⟨plain, hholds⟩ := htable.of_append
    refine ⟨plain, holds_empty.registerAll_eq_ok_iff.mpr hholds, ?_⟩
    exact (hholds.registerPieces_eq_ok_iff playersAre_plainArtifacts).mpr ⟨hfit, htable⟩

def declaredAs (b : Blueprint) : ArtifactKind → List ArtifactId
  | .tile => b.tiles
  | .player => b.players
  | .piece => b.pieces.map PieceDecl.id
  | .dice => b.dice.map Prod.fst
  | .custom name => (b.customs.filter fun c => c.2 = name).map Prod.fst

theorem Holds.isKind_declared_iff (h : Holds table b.artifacts) :
    isKind table id kind = true ↔ id ∈ b.declaredAs kind := by
  rw [h.isKind_iff]
  cases kind <;>
    simp [artifacts, plainArtifacts, PieceDecl.artifact, declaredAs, or_and_right, exists_or]

theorem Holds.contains_declared_iff (h : Holds table b.artifacts) :
    table.contains id = true ↔ id ∈ b.artifactIds := by rw [h.contains_iff, map_id_artifacts]

end Declared

end BoardGame.Blueprint
