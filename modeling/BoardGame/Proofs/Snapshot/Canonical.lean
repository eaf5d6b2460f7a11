import BoardGame.Proofs.Snapshot.Indexes

/-!
Snapshots keep no trace of how they were made. Indexes that mirror the statuses and store no empty sets
are determined by them, so two snapshots with the same lookups are the same value, whatever changes led
to each. Hence changes at different keys may be made in any order, and a change that is undone leaves
the snapshot that there was before.
-/

namespace BoardGame.Snapshot

section Index

variable {κ : Type} [KeyOrder κ] [DecidableEq κ] {i j : SortedMap κ (SortedSet ArtifactId)}
  {k : κ} {set : SortedSet ArtifactId}

theorem set_ext {A B : SortedSet ArtifactId} (h : A.keys = B.keys) : A = B := by
  apply SortedMap.ext_get?
  intro a
  have hmem : (A.get? a).isSome = true ↔ (B.get? a).isSome = true := by
    rw [← SortedMap.mem_keys_iff, ← SortedMap.mem_keys_iff, h]
  cases hA : A.get? a with
  | none =>
    cases hB : B.get? a with
    | none => rfl
    | some _ => simp [hA, hB] at hmem
  | some _ =>
    cases hB : B.get? a with
    | none => simp [hA, hB] at hmem
    | some _ => rfl

theorem NoEmptySet.get?_eq_some_iff (h : NoEmptySet i) :
    i.get? k = some set ↔ members i k = set.keys ∧ members i k ≠ [] := by
  unfold members
  cases hget : i.get? k with
  | none => simp [SortedMap.empty, SortedMap.keys]
  | some found =>
    have hsome : found.keys ≠ [] := by
      rw [Ne, SortedMap.keys_eq_nil_iff, h k found hget]
      exact Bool.false_ne_true
    rw [Option.getD_some, Option.some.injEq]
    constructor
    · rintro rfl
      exact ⟨rfl, hsome⟩
    · rintro ⟨hkeys, -⟩
      exact set_ext hkeys

theorem NoEmptySet.ext (hi : NoEmptySet i) (hj : NoEmptySet j)
    (h : ∀ k a, a ∈ members i k ↔ a ∈ members j k) : i = j := by
  apply SortedMap.ext_get?
  intro k
  have hmembers : members i k = members j k :=
    (sorted_members i k).eq_of_mem_iff (sorted_members j k) (h k)
  apply Option.ext
  intro set
  rw [hi.get?_eq_some_iff, hj.get?_eq_some_iff, hmembers]

end Index

variable {s t : Snapshot} {status : Status} {xs ys : List Status}

/-- Snapshots whose indexes mirror their statuses are the same if all lookups agree. -/
theorem Indexed.ext (hs : s.Indexed) (ht : t.Indexed)
    (hget : ∀ artifact aspect, s.get? artifact aspect = t.get? artifact aspect)
    (hextra : ∀ key, s.extra? key = t.extra? key) (hrolls : s.rolls = t.rolls) : s = t := by
  have hstatuses : s.statuses = t.statuses := SortedMap.ext_get? fun k => hget k.1 k.2
  have hoccupancy : s.occupancy = t.occupancy := by
    apply hs.occupied_tiles.ext ht.occupied_tiles
    intro tile piece
    rw [hs.occupants, ht.occupants, hget]
  have hcarriers : s.carriers = t.carriers := by
    apply hs.carried_aspects.ext ht.carried_aspects
    intro aspect artifact
    rw [hs.carriers, ht.carriers, hget]
  have hextras : s.extras = t.extras := SortedMap.ext_get? hextra
  cases s
  cases t
  simp_all

theorem Indexed.ext_statuses (hs : s.Indexed) (ht : t.Indexed) (hextras : s.extras = t.extras)
    (hrolls : s.rolls = t.rolls)
    (hget : ∀ artifact aspect, s.get? artifact aspect = t.get? artifact aspect) : s = t := by
  refine hs.ext ht hget (fun key => ?_) hrolls
  rw [extra?, extra?, hextras]

/-- Of two batches without a common key neither hides what the other stores. -/
theorem find?_or_comm (hdisjoint : ∀ x ∈ xs, ∀ y ∈ ys, x.key ≠ y.key)
    (k : ArtifactId × Aspect) (old : Option Status) :
    (ys.reverse.find? fun y => y.key = k).or ((xs.reverse.find? fun x => x.key = k).or old) =
      (xs.reverse.find? fun x => x.key = k).or ((ys.reverse.find? fun y => y.key = k).or old) := by
  cases hx : xs.reverse.find? fun x => x.key = k with
  | none => simp
  | some x =>
    cases hy : ys.reverse.find? fun y => y.key = k with
    | none => simp
    | some y =>
      have hxk : x.key = k := by simpa using List.find?_some hx
      have hyk : y.key = k := by simpa using List.find?_some hy
      have hxmem : x ∈ xs := List.mem_reverse.mp (List.mem_of_find?_eq_some hx)
      have hymem : y ∈ ys := List.mem_reverse.mp (List.mem_of_find?_eq_some hy)
      exact absurd (hxk.trans hyk.symm) (hdisjoint x hxmem y hymem)

theorem Indexed.putAll_comm (h : s.Indexed) (hdisjoint : ∀ x ∈ xs, ∀ y ∈ ys, x.key ≠ y.key) :
    (s.putAll xs).putAll ys = (s.putAll ys).putAll xs := by
  apply ((h.putAll xs).putAll ys).ext_statuses ((h.putAll ys).putAll xs) (by simp) (by simp)
  intro artifact aspect
  simp only [get?_putAll]
  exact find?_or_comm hdisjoint _ _

/-- A status that is changed, however often, and then stored anew is as it was. -/
theorem Indexed.put_back (h : s.Indexed) (hold : s.get? status.artifact status.aspect = some status)
    (hkey : ∀ x ∈ xs, x.key = status.key) : (s.putAll xs).putAll [status] = s := by
  apply ((h.putAll xs).putAll [status]).ext_statuses h (by simp) (by simp)
  intro artifact aspect
  rw [get?_putAll, get?_putAll]
  by_cases hk : status.key = (artifact, aspect)
  · obtain ⟨rfl, rfl⟩ := Prod.mk.inj hk
    simp [hk, hold]
  · have hnone : xs.reverse.find? (fun x => x.key = (artifact, aspect)) = none := by
      rw [List.find?_eq_none]
      intro x hx
      simp [hkey x (List.mem_reverse.mp hx), hk]
    simp [hnone, hk]

theorem Indexed.remove_new (h : s.Indexed) (hnew : s.get? status.artifact status.aspect = none) :
    (s.putAll [status]).remove status.artifact status.aspect = s := by
  apply ((h.putAll [status]).remove _ _).ext_statuses h (by simp) (by simp)
  intro artifact aspect
  rw [get?_remove, get?_putAll]
  by_cases hk : (artifact, aspect) = (status.artifact, status.aspect)
  · obtain ⟨rfl, rfl⟩ := Prod.mk.inj hk
    simp [hnew]
  · have hkey : status.key ≠ (artifact, aspect) := fun heq => hk heq.symm
    simp [hk, hkey]

/-- Two fresh snapshots, whatever changes were made to them, are the same as soon as their statuses,
extras and dice streams are, and are then digested and written alike. So a batch may be split, batches
without a common key may be exchanged, and a piece that is moved away and back, or a status that is
stored anew and removed, leaves no trace. -/
theorem history_leaves_no_trace (seed seed' : UInt64) (edits edits' : List Edit) :
    let s := (seeded seed).editAll edits
    let t := (seeded seed').editAll edits'
    ((∀ artifact aspect, s.get? artifact aspect = t.get? artifact aspect) →
      (∀ key, s.extra? key = t.extra? key) → s.rolls = t.rolls →
      s = t ∧ s.fingerprint = t.fingerprint ∧ encode s = encode t) ∧
    (∀ xs ys, s.putAll (xs ++ ys) = (s.putAll xs).putAll ys) ∧
    (∀ xs ys, (∀ x ∈ xs, ∀ y ∈ ys, x.key ≠ y.key) →
      (s.putAll xs).putAll ys = (s.putAll ys).putAll xs) ∧
    (∀ piece tile (visited : List ArtifactId), s.tileOf? piece = some tile →
      (s.putAll (visited.map (.piece piece))).putAll [.piece piece tile] = s) ∧
    ∀ status, s.get? status.artifact status.aspect = none →
      (s.putAll [status]).remove status.artifact status.aspect = s := by
  intro s t
  have hs : s.Indexed := (indexed_seeded seed).editAll edits
  have ht : t.Indexed := (indexed_seeded seed').editAll edits'
  refine ⟨?_, ?_, ?_, ?_, ?_⟩
  · intro hget hextra hrolls
    have heq : s = t := hs.ext ht hget hextra hrolls
    exact ⟨heq, congrArg fingerprint heq, congrArg encode heq⟩
  · exact s.putAll_append
  · intro xs ys hdisjoint
    exact hs.putAll_comm hdisjoint
  · intro piece tile visited htile
    have hplaced : s.get? (Status.piece piece tile).artifact (Status.piece piece tile).aspect =
        some (.piece piece tile) := hs.tileOf?_eq_some_iff.mp htile
    apply hs.put_back hplaced
    intro x hx
    obtain ⟨place, -, rfl⟩ := List.mem_map.mp hx
    rfl
  · intro status hnew
    exact hs.remove_new hnew

def direct : List Edit := [.put [.piece "rook" "a3", .captured "pawn"], .extra "turn" (.int 3)]

/-- The same by way of another tile and another seed, with a die that does not stay. -/
def detour : List Edit :=
  [.put [.dice "d6" none, .piece "rook" "a1"], .extra "turn" (.int 2), .put [.piece "rook" "h8"],
    .put [.captured "pawn", .piece "rook" "a3"], .remove "d6" .dice, .extra "turn" (.int 3),
    .rolls (RollState.seeded 7)]

theorem detour_leaves_no_trace :
    let s := (seeded 7).editAll direct
    let t := (seeded 9).editAll detour
    (∀ artifact aspect, s.get? artifact aspect = t.get? artifact aspect) ∧
    (∀ key, s.extra? key = t.extra? key) ∧ s.rolls = t.rolls ∧
    s = t ∧ s.fingerprint = t.fingerprint ∧ encode s = encode t := by
  intro s t
  have hstatuses : s.statuses = t.statuses := by decide
  have hextras : s.extras = t.extras := by decide
  have hget : ∀ artifact aspect, s.get? artifact aspect = t.get? artifact aspect := by
    intro artifact aspect
    rw [get?, get?, hstatuses]
  have hextra : ∀ key, s.extra? key = t.extra? key := by
    intro key
    rw [extra?, extra?, hextras]
  exact ⟨hget, hextra, rfl, (history_leaves_no_trace 7 9 direct detour).1 hget hextra rfl⟩

end BoardGame.Snapshot
