import BoardGame.Snapshot.Edit
import Mathlib.Data.List.Sort

/-!
The indexes of a snapshot mirror its statuses. Every change to the indexes is adding a member to a set or
dropping one; a piece that is put somewhere is first dropped from where it stood. So whatever changes
were made, a piece is listed on exactly the tile of its status, an artifact under exactly the aspects it
has, and all lookups that read an index answer as the statuses do.
-/

namespace BoardGame.Snapshot

section Index

variable {κ : Type} [KeyOrder κ] [DecidableEq κ] {index : SortedMap κ (SortedSet ArtifactId)}
  {k j : κ} {a b : ArtifactId}

def NoEmptySet (index : SortedMap κ (SortedSet ArtifactId)) : Prop :=
  ∀ k set, index.get? k = some set → set.isEmpty = false

theorem mem_members_iff :
    a ∈ members index k ↔ ∃ set, index.get? k = some set ∧ (set.get? a).isSome = true := by
  rw [members, SortedMap.mem_keys_iff]
  cases index.get? k with
  | none => simp
  | some set => simp

theorem mem_members_addMember :
    b ∈ members (addMember index k a) j ↔ (j = k ∧ b = a) ∨ b ∈ members index j := by
  rw [addMember, members, SortedMap.get?_insert]
  by_cases hj : j = k
  · subst hj
    rw [if_pos rfl, Option.getD_some, SortedMap.mem_keys_iff, SortedMap.get?_insert, members,
      SortedMap.mem_keys_iff]
    by_cases hb : b = a <;> simp [hb]
  · simp [hj, members]

theorem members_dropMember_self :
    members (dropMember index k a) k = (((index.get? k).getD .empty).erase a).keys := by
  unfold members dropMember
  cases hset : index.get? k with
  | none => simp [hset, SortedMap.empty, SortedMap.erase, SortedMap.keys, Entries.erase]
  | some set =>
    dsimp only
    split
    · rename_i hempty
      simpa [SortedMap.keys, SortedMap.empty] using
        ((SortedMap.keys_eq_nil_iff _).mpr hempty).symm
    · simp

theorem get?_dropMember_of_ne (h : j ≠ k) : (dropMember index k a).get? j = index.get? j := by
  unfold dropMember
  cases index.get? k with
  | none => rfl
  | some set =>
    dsimp only
    split
    · exact SortedMap.get?_erase_of_ne _ h
    · exact SortedMap.get?_insert_of_ne _ _ h

theorem mem_members_dropMember :
    b ∈ members (dropMember index k a) j ↔ b ∈ members index j ∧ ¬ (j = k ∧ b = a) := by
  by_cases hj : j = k
  · subst hj
    rw [members_dropMember_self, SortedMap.mem_keys_iff, SortedMap.get?_erase, members,
      SortedMap.mem_keys_iff]
    by_cases hb : b = a <;> simp [hb]
  · rw [members, get?_dropMember_of_ne hj]
    simp [hj, members]

theorem noEmptySet_addMember (h : NoEmptySet index) : NoEmptySet (addMember index k a) := by
  intro j set hset
  rw [addMember, SortedMap.get?_insert] at hset
  split at hset
  · cases hset
    have hmem : a ∈ (((index.get? k).getD .empty).insert a ()).keys := by
      rw [SortedMap.mem_keys_iff, SortedMap.get?_insert_self]
      rfl
    rw [Bool.eq_false_iff, Ne, ← SortedMap.keys_eq_nil_iff]
    exact List.ne_nil_of_mem hmem
  · exact h j set hset

theorem noEmptySet_dropMember (h : NoEmptySet index) : NoEmptySet (dropMember index k a) := by
  intro j set hset
  by_cases hj : j = k
  · subst hj
    unfold dropMember at hset
    split at hset
    · exact h j set hset
    · dsimp only at hset
      split at hset
      · simp at hset
      · rename_i hne
        rw [SortedMap.get?_insert_self] at hset
        cases hset
        exact Bool.eq_false_iff.mpr hne
  · rw [get?_dropMember_of_ne hj] at hset
    exact h j set hset

end Index

/-- The indexes hold what the statuses say and nothing else. -/
structure Indexed (s : Snapshot) : Prop where
  stored_at_key : ∀ k status, s.statuses.get? k = some status → status.key = k
  occupants : ∀ tile piece, piece ∈ members s.occupancy tile ↔
    s.get? piece .piece = some (.piece piece tile)
  carriers : ∀ aspect artifact, artifact ∈ members s.carriers aspect ↔
    (s.get? artifact aspect).isSome = true
  occupied_tiles : NoEmptySet s.occupancy
  carried_aspects : NoEmptySet s.carriers

variable {s : Snapshot} {artifact piece tile player : ArtifactId} {aspect : Aspect} {status : Status}

theorem eq_piece_of_key (h : status.key = (piece, .piece)) : ∃ tile, status = .piece piece tile := by
  cases status with
  | piece id tile =>
    cases h
    exact ⟨tile, rfl⟩
  | _ => cases h

theorem eq_activePlayer_of_key (h : status.key = (player, .activePlayer)) :
    ∃ active, status = .activePlayer player active := by
  cases status with
  | activePlayer id active =>
    cases h
    exact ⟨active, rfl⟩
  | _ => cases h

namespace Indexed

theorem key_eq (h : s.Indexed) (hget : s.get? artifact aspect = some status) :
    status.key = (artifact, aspect) := h.stored_at_key _ _ hget

theorem tileOf?_eq_some_iff (h : s.Indexed) :
    s.tileOf? piece = some tile ↔ s.get? piece .piece = some (.piece piece tile) := by
  unfold tileOf?
  cases hget : s.get? piece .piece with
  | none => simp
  | some status =>
    obtain ⟨place, rfl⟩ := eq_piece_of_key (h.key_eq hget)
    simp

theorem mem_members_vacate (h : s.Indexed) {other : ArtifactId} :
    other ∈ members (s.vacate piece).occupancy tile ↔
      other ∈ members s.occupancy tile ∧ other ≠ piece := by
  unfold vacate
  cases htile : s.tileOf? piece with
  | none =>
    refine ⟨fun hmem => ⟨hmem, ?_⟩, fun hmem => hmem.1⟩
    rintro rfl
    rw [h.tileOf?_eq_some_iff.mpr ((h.occupants tile other).mp hmem)] at htile
    cases htile
  | some place =>
    rw [mem_members_dropMember]
    refine and_congr_right fun hmem => ⟨?_, fun hne hboth => hne hboth.2⟩
    rintro hnot rfl
    have hplace := h.tileOf?_eq_some_iff.mpr ((h.occupants tile other).mp hmem)
    rw [hplace] at htile
    exact hnot ⟨Option.some.inj htile, rfl⟩

end Indexed

theorem noEmptySet_vacate (h : NoEmptySet s.occupancy) : NoEmptySet (s.vacate piece).occupancy := by
  unfold vacate
  split
  · exact noEmptySet_dropMember h
  · exact h

theorem noEmptySet_settle (h : NoEmptySet s.occupancy) :
    NoEmptySet (s.settle status).occupancy := by
  cases status with
  | piece piece tile => exact noEmptySet_addMember (noEmptySet_vacate h)
  | _ => exact h

/-- A change that is no repetition settles the piece, if it is about one, and enters its key. -/
theorem put_of_ne (h : s.statuses.get? status.key ≠ some status) :
    s.put status =
      { s.settle status with
        carriers := addMember s.carriers status.aspect status.artifact
        statuses := s.statuses.insert status.key status } := by
  simp [put, h]

namespace Indexed

theorem mem_members_settle (h : s.Indexed) :
    piece ∈ members (s.settle status).occupancy tile ↔
      (if (piece, .piece) = status.key then some status else s.get? piece .piece) =
        some (.piece piece tile) := by
  cases status with
  | piece id place =>
    rw [settle, mem_members_addMember, h.mem_members_vacate, h.occupants]
    by_cases hid : piece = id
    · subst hid
      simp [Status.key, Status.artifact, Status.aspect, eq_comm]
    · simp [Status.key, Status.artifact, Status.aspect, hid]
  | _ => simp [settle, Status.key, Status.aspect, h.occupants]

theorem put (h : s.Indexed) (status : Status) : (s.put status).Indexed := by
  by_cases hsame : s.statuses.get? status.key = some status
  · rwa [Snapshot.put, if_pos hsame]
  have hget := s.get?_put status
  rw [put_of_ne hsame] at hget ⊢
  constructor
  · intro k found hfound
    dsimp only at hfound
    rw [SortedMap.get?_insert] at hfound
    split at hfound
    · rename_i hk
      cases hfound
      exact hk.symm
    · exact h.stored_at_key k found hfound
  · intro tile piece
    rw [hget]
    exact h.mem_members_settle
  · intro aspect artifact
    rw [hget, mem_members_addMember, h.carriers]
    by_cases hkey : (artifact, aspect) = status.key
    · obtain ⟨rfl, rfl⟩ := Prod.mk.inj hkey
      rw [if_pos hkey]
      simp
    · have hkey' : ¬ (aspect = status.aspect ∧ artifact = status.artifact) := by
        rintro ⟨rfl, rfl⟩
        exact hkey rfl
      simp [hkey, hkey']
  · exact noEmptySet_settle h.occupied_tiles
  · exact noEmptySet_addMember h.carried_aspects

theorem putAll (h : s.Indexed) (statuses : List Status) : (s.putAll statuses).Indexed := by
  induction statuses generalizing s with
  | nil => exact h
  | cons status rest ih => exact ih (h.put status)

theorem remove (h : s.Indexed) (artifact : ArtifactId) (aspect : Aspect) :
    (s.remove artifact aspect).Indexed := by
  have hget := fun id a => s.get?_remove artifact id aspect a
  unfold Snapshot.remove at hget ⊢
  split
  · exact h
  · rename_i removed hremoved
    simp only [hremoved] at hget
    constructor
    · intro k found hfound
      dsimp only at hfound
      rw [SortedMap.get?_erase] at hfound
      split at hfound
      · cases hfound
      · exact h.stored_at_key k found hfound
    · intro tile piece
      rw [hget]
      by_cases haspect : aspect = .piece
      · subst haspect
        rw [if_pos rfl, h.mem_members_vacate, h.occupants]
        by_cases hpiece : piece = artifact <;> simp [hpiece]
      · rw [if_neg haspect, h.occupants, if_neg]
        intro hkey
        exact haspect (Prod.mk.inj hkey).2.symm
    · intro other id
      rw [hget, mem_members_dropMember, h.carriers]
      by_cases hkey : (id, other) = (artifact, aspect)
      · obtain ⟨rfl, rfl⟩ := Prod.mk.inj hkey
        simp
      · have hkey' : ¬ (other = aspect ∧ id = artifact) := by
          rintro ⟨rfl, rfl⟩
          exact hkey rfl
        simp [hkey, hkey']
    · dsimp only
      split
      · exact noEmptySet_vacate h.occupied_tiles
      · exact h.occupied_tiles
    · exact noEmptySet_dropMember h.carried_aspects

theorem setExtra (h : s.Indexed) (key : String) (value : Value) : (s.setExtra key value).Indexed := by
  unfold Snapshot.setExtra
  split
  · exact h
  · exact ⟨h.stored_at_key, h.occupants, h.carriers, h.occupied_tiles, h.carried_aspects⟩

theorem setRolls (h : s.Indexed) (rolls : RollState) : (s.setRolls rolls).Indexed :=
  ⟨h.stored_at_key, h.occupants, h.carriers, h.occupied_tiles, h.carried_aspects⟩

theorem edit (h : s.Indexed) (edit : Edit) : (s.edit edit).Indexed := by
  cases edit with
  | put statuses => exact h.putAll statuses
  | remove artifact aspect => exact h.remove artifact aspect
  | extra key value => exact h.setExtra key value
  | rolls state => exact h.setRolls state

theorem editAll (h : s.Indexed) (edits : List Edit) : (s.editAll edits).Indexed := by
  induction edits generalizing s with
  | nil => exact h
  | cons edit rest ih => exact ih (h.edit edit)

end Indexed

theorem indexed_seeded (seed : UInt64) : (seeded seed).Indexed := by
  constructor <;> intros <;>
    simp_all [seeded, get?, members, SortedMap.keys, SortedMap.empty, NoEmptySet, SortedMap.get?,
      Entries.lookup]

/-! ### Lookups that read an index -/

theorem has_iff (h : s.Indexed) : s.has artifact aspect = true ↔
    (s.get? artifact aspect).isSome = true := by
  rw [← h.carriers, mem_members_iff, has]
  cases s.carriers.get? aspect with
  | none => simp
  | some set => simp [SortedMap.contains]

theorem isOccupied_iff : s.isOccupied tile = true ↔ s.piecesOn tile ≠ [] := by
  rw [isOccupied, piecesOn, members]
  cases s.occupancy.get? tile with
  | none => simp [SortedMap.keys, SortedMap.empty]
  | some set => simp [SortedMap.keys_eq_nil_iff]

theorem sorted_members {κ : Type} [KeyOrder κ] [DecidableEq κ]
    (index : SortedMap κ (SortedSet ArtifactId)) (k : κ) :
    (members index k).Pairwise (· < ·) := by
  have hkeys := ((index.get? k).getD .empty).sorted_keys
  simp only [KeyOrder.before, decide_eq_true_eq] at hkeys
  exact hkeys

def entriesOf (s : Snapshot) (aspect : Aspect) : List ((ArtifactId × Aspect) × Status) :=
  s.statuses.entries.filter fun e => e.1.2 = aspect

theorem mem_entriesOf_iff {e : (ArtifactId × Aspect) × Status} :
    e ∈ s.entriesOf aspect ↔ s.get? e.1.1 aspect = some e.2 ∧ e.1.2 = aspect := by
  rw [entriesOf, List.mem_filter, decide_eq_true_eq, ← SortedMap.get?_eq_some_iff]
  constructor
  · rintro ⟨hget, rfl⟩
    exact ⟨hget, rfl⟩
  · rintro ⟨hget, rfl⟩
    exact ⟨hget, rfl⟩

theorem sorted_entriesOf (s : Snapshot) (aspect : Aspect) :
    ((s.entriesOf aspect).map fun e => e.1.1).Pairwise (· < ·) := by
  rw [List.pairwise_map]
  have hsorted : (s.entriesOf aspect).Pairwise fun a b => KeyOrder.before a.1 b.1 = true :=
    s.statuses.sorted.filter _
  refine hsorted.imp_of_mem fun {d e} hd he hbefore => ?_
  have hd' := (mem_entriesOf_iff.mp hd).2
  have he' := (mem_entriesOf_iff.mp he).2
  simpa [KeyOrder.before, hd', he'] using hbefore

theorem carriersOf_eq (h : s.Indexed) :
    s.carriersOf aspect = (s.entriesOf aspect).map fun e => e.1.1 := by
  refine (sorted_members s.carriers aspect).eq_of_mem_iff (sorted_entriesOf s aspect) ?_
  intro artifact
  rw [h.carriers, Option.isSome_iff_exists, List.mem_map]
  constructor
  · rintro ⟨status, hget⟩
    exact ⟨((artifact, aspect), status), mem_entriesOf_iff.mpr ⟨hget, rfl⟩, rfl⟩
  · rintro ⟨e, he, rfl⟩
    exact ⟨e.2, (mem_entriesOf_iff.mp he).1⟩

/-- Reading an aspect by its index gives what scanning all statuses gives, in the same order. -/
theorem statusesOf_eq (h : s.Indexed) :
    s.statusesOf aspect = s.allStatuses.filter fun status => status.aspect = aspect := by
  have hread : s.statusesOf aspect = (s.entriesOf aspect).map Prod.snd := by
    rw [statusesOf, carriersOf_eq h, List.filterMap_map, ← List.filterMap_eq_map]
    refine List.filterMap_congr fun e he => ?_
    exact (mem_entriesOf_iff.mp he).1
  rw [hread, allStatuses, SortedMap.values, List.filter_map, entriesOf]
  congr 1
  refine List.filter_congr fun e he => ?_
  have hkey := h.stored_at_key e.1 e.2 ((s.statuses.get?_eq_some_iff e.1 e.2).mpr he)
  simp [Function.comp, ← hkey, Status.key]

theorem isActive_iff (h : s.Indexed) : s.isActive player = true ↔
    s.get? player .activePlayer = some (.activePlayer player true) := by
  unfold isActive
  cases hget : s.get? player .activePlayer with
  | none => simp
  | some status =>
    obtain ⟨active, rfl⟩ := eq_activePlayer_of_key (h.key_eq hget)
    simp

/-- A player with an active turn marker of its own. -/
def OnTurn (s : Snapshot) (player : ArtifactId) : Prop :=
  s.get? player .activePlayer = some (.activePlayer player true)

theorem OnTurn.mem_carriersOf (h : s.Indexed) (hturn : s.OnTurn player) :
    player ∈ s.carriersOf .activePlayer := by
  rw [carriersOf, h.carriers, hturn]
  rfl

theorem activePlayer?_eq_none_iff (h : s.Indexed) :
    s.activePlayer? = none ↔ ∀ player, ¬ s.OnTurn player := by
  rw [activePlayer?, List.find?_eq_none]
  constructor
  · intro hnone player hturn
    exact hnone player (hturn.mem_carriersOf h) ((isActive_iff h).mpr hturn)
  · intro hnone player _ hactive
    exact hnone player ((isActive_iff h).mp hactive)

theorem least_of_activePlayer? (h : s.Indexed) (hfirst : s.activePlayer? = some player) :
    s.OnTurn player ∧ ∀ other, s.OnTurn other → player ≤ other := by
  obtain ⟨hactive, before, after, hsplit, hbefore⟩ := List.find?_eq_some_iff_append.mp hfirst
  refine ⟨(isActive_iff h).mp hactive, fun other hturn => ?_⟩
  have hmem := hturn.mem_carriersOf h
  have hsorted := sorted_members s.carriers .activePlayer
  rw [carriersOf] at hsplit hmem
  rw [hsplit] at hsorted hmem
  rcases List.mem_append.mp hmem with hmem | hmem
  · have hinactive := hbefore other hmem
    rw [(isActive_iff h).mpr hturn] at hinactive
    cases hinactive
  · rcases List.mem_cons.mp hmem with rfl | hmem
    · exact String.le_refl other
    · have hlater := (List.pairwise_append.mp hsorted).2.1
      exact String.not_lt.mp (String.lt_asymm ((List.pairwise_cons.mp hlater).1 other hmem))

theorem activePlayer?_eq_some_iff (h : s.Indexed) :
    s.activePlayer? = some player ↔
      s.OnTurn player ∧ ∀ other, s.OnTurn other → player ≤ other := by
  refine ⟨least_of_activePlayer? h, fun ⟨hturn, hleast⟩ => ?_⟩
  cases hfirst : s.activePlayer? with
  | none => exact absurd hturn ((activePlayer?_eq_none_iff h).mp hfirst player)
  | some first =>
    obtain ⟨hfirst_turn, hfirst_least⟩ := least_of_activePlayer? h hfirst
    rw [String.le_antisymm (hfirst_least player hturn) (hleast first hfirst_turn)]

/-- Whatever changes were made to a fresh snapshot, its indexes mirror its statuses; so every lookup
answers as the statuses do, and changes are seen at their own keys alone. -/
theorem reached_snapshot_mirrors (seed : UInt64) (edits : List Edit) :
    let s := (seeded seed).editAll edits
    s.Indexed ∧
    (∀ artifact aspect,
      s.has artifact aspect = true ↔ (s.get? artifact aspect).isSome = true) ∧
    (∀ tile, (s.piecesOn tile).Pairwise (· < ·) ∧
      ∀ piece, piece ∈ s.piecesOn tile ↔ s.tileOf? piece = some tile) ∧
    (∀ tile, s.isOccupied tile = true ↔ s.piecesOn tile ≠ []) ∧
    (∀ aspect, s.statusesOf aspect =
      s.allStatuses.filter fun status => status.aspect = aspect) ∧
    (∀ player, s.activePlayer? = some player ↔
      s.OnTurn player ∧ ∀ other, s.OnTurn other → player ≤ other) ∧
    (s.activePlayer? = none ↔ ∀ player, ¬ s.OnTurn player) ∧
    (∀ changes, (∀ artifact aspect, (s.putAll changes).get? artifact aspect =
        (changes.reverse.find? fun status => status.key = (artifact, aspect)).or
          (s.get? artifact aspect)) ∧
      (s.putAll changes).extras = s.extras ∧ (s.putAll changes).rolls = s.rolls) ∧
    ∀ artifact aspect, (∀ id a, (s.remove artifact aspect).get? id a =
        if (id, a) = (artifact, aspect) then none else s.get? id a) ∧
      (s.remove artifact aspect).extras = s.extras ∧
      (s.remove artifact aspect).rolls = s.rolls := by
  intro s
  have h : s.Indexed := (indexed_seeded seed).editAll edits
  refine ⟨h, fun _ _ => has_iff h, fun tile => ⟨sorted_members _ tile, fun piece => ?_⟩,
    fun _ => isOccupied_iff, fun _ => statusesOf_eq h, fun _ => activePlayer?_eq_some_iff h,
    activePlayer?_eq_none_iff h, fun changes => ⟨?_, ?_, ?_⟩, fun artifact aspect => ⟨?_, ?_, ?_⟩⟩
  · rw [h.tileOf?_eq_some_iff]
    exact h.occupants tile piece
  · exact get?_putAll s changes
  · exact extras_putAll s changes
  · exact rolls_putAll s changes
  · intro id a
    exact s.get?_remove artifact id aspect a
  · exact extras_remove s artifact aspect
  · exact rolls_remove s artifact aspect

end BoardGame.Snapshot
