import BoardGame.Phase.Agenda
import Mathlib.Data.List.Basic

/-!
What an agenda hands to an event. The positions of the entries made for one type and those of the entries
made for none are two selections from the ascending list of all positions, so merging them by the smaller
front gives the selection of both: the entries that a full scan would not find to be of another type, in
the order of a full scan.
-/

namespace BoardGame

namespace AgendaCursor

variable {q next : AgendaCursor} {i : Nat} {typed untyped : List Nat}

theorem remaining_of_next? (h : q.next? = some (i, next)) : q.remaining = next.remaining + 1 := by
  obtain ⟨typed, untyped⟩ := q
  cases typed with
  | nil =>
    cases untyped with
    | nil => cases h
    | cons u untyped =>
      cases h
      simp [remaining]
  | cons t typed =>
    cases untyped with
    | nil =>
      cases h
      simp [remaining]
    | cons u untyped =>
      simp only [next?] at h
      split at h <;> cases h <;> simp only [remaining, List.length_cons] <;> omega

theorem positions_of_next? (h : q.next? = some (i, next)) : q.positions = i :: next.positions := by
  rw [positions, remaining_of_next? h, drain, h, positions]

theorem next?_typed (h : ∀ u ∈ untyped, i < u) :
    next? ⟨i :: typed, untyped⟩ = some (i, ⟨typed, untyped⟩) := by
  cases untyped with
  | nil => rfl
  | cons u untyped => rw [next?, if_pos (h u (List.mem_cons_self ..))]

theorem next?_untyped (h : ∀ t ∈ typed, i < t) :
    next? ⟨typed, i :: untyped⟩ = some (i, ⟨typed, untyped⟩) := by
  cases typed with
  | nil => rfl
  | cons t typed =>
    have hlt := h t (List.mem_cons_self ..)
    rw [next?, if_neg (by omega)]

/-- Two selections from an ascending list that have nothing in common merge to the selection of both. -/
theorem positions_merge {α : Type} {index : α → Nat} {chosen other : α → Bool} {l : List α}
    (hsorted : l.Pairwise fun a b => index a < index b)
    (hdisjoint : ∀ a ∈ l, chosen a = true → other a = false) :
    positions ⟨(l.filter chosen).map index, (l.filter other).map index⟩ =
      (l.filter fun a => chosen a || other a).map index := by
  induction l with
  | nil => rfl
  | cons a rest ih =>
    obtain ⟨hfront, hrest⟩ := List.pairwise_cons.mp hsorted
    have ih' := ih hrest fun b hb => hdisjoint b (List.mem_cons_of_mem _ hb)
    -- every later position, of either selection, is behind that of the front
    have hlater : ∀ {p : α → Bool}, ∀ i ∈ (rest.filter p).map index, index a < i := by
      intro p i hi
      obtain ⟨b, hb, rfl⟩ := List.mem_map.mp hi
      exact hfront b (List.mem_filter.mp hb).1
    cases hchosen : chosen a with
    | true =>
      have hother := hdisjoint a (List.mem_cons_self ..) hchosen
      simp only [List.filter_cons, hchosen, hother, Bool.true_or, if_true, List.map_cons,
        Bool.false_eq_true, if_false]
      rw [positions_of_next? (next?_typed hlater), ih']
    | false =>
      cases hother : other a with
      | true =>
        simp only [List.filter_cons, hchosen, hother, Bool.or_true, if_true, List.map_cons,
          Bool.false_eq_true, if_false]
        rw [positions_of_next? (next?_untyped hlater), ih']
      | false => simpa only [List.filter_cons, hchosen, hother, Bool.or_false, Bool.false_eq_true,
          if_false] using ih'

end AgendaCursor

namespace AgendaEntry

def isFiledUnder (indexed : Bool) (type : EventType) (e : AgendaEntry) : Bool :=
  indexed && e.type = some type

def isUnfiled (indexed : Bool) (e : AgendaEntry) : Bool := !indexed || e.type.isNone

theorem isUnfiled_of_isFiledUnder {indexed : Bool} {type : EventType} {e : AgendaEntry}
    (h : e.isFiledUnder indexed type = true) : e.isUnfiled indexed = false := by
  simp only [isFiledUnder, Bool.and_eq_true, decide_eq_true_eq] at h
  simp [isUnfiled, h.1, h.2]

theorem type_ne_of_left_out {indexed : Bool} {type : EventType} {e : AgendaEntry}
    (h : ¬(e.isFiledUnder indexed type || e.isUnfiled indexed) = true) :
    ∃ t, e.type = some t ∧ type ≠ t := by
  simp only [Bool.or_eq_true, not_or] at h
  obtain ⟨hfiled, hunfiled⟩ := h
  cases htype : e.type with
  | none => exact absurd (by simp [isUnfiled, htype]) hunfiled
  | some t =>
    refine ⟨t, rfl, fun heq => ?_⟩
    cases hindexed : indexed with
    | false => exact absurd (by simp [isUnfiled, hindexed]) hunfiled
    | true => exact absurd (by simp [isFiledUnder, hindexed, htype, heq]) hfiled

end AgendaEntry

namespace Agenda

theorem lookup_addToType {type t : EventType} {i : Nat} {l : List (EventType × List Nat)} :
    (Entries.lookup t (addToType type i l)).getD [] =
      (Entries.lookup t l).getD [] ++ if type = t then [i] else [] := by
  induction l with
  | nil =>
    by_cases h : t = type
    · subst h
      simp [addToType, Entries.lookup]
    · simp [addToType, Entries.lookup, h, Ne.symm h]
  | cons hd rest ih =>
    obtain ⟨u, indexes⟩ := hd
    rw [addToType]
    by_cases hu : u = type
    · subst hu
      by_cases ht : t = u
      · subst ht
        simp [Entries.lookup]
      · simp [Entries.lookup, ht, Ne.symm ht]
    · by_cases ht : t = u
      · subst ht
        simp [Entries.lookup, hu, Ne.symm hu]
      · simpa [Entries.lookup, hu, ht] using ih

/-- An agenda that holds given leaves in order, and files under a type, or under none, just the positions
of the entries that belong there. -/
structure Lists (a : Agenda) (indexed : Bool) (leaves : List LeafPhase) : Prop where
  entries_eq : a.entries = leaves.zipIdx.map fun p => entryOf p.1 p.2
  filed : ∀ type, (Entries.lookup type a.byType).getD [] =
    (a.entries.filter (AgendaEntry.isFiledUnder indexed type)).map AgendaEntry.index
  unfiled : a.untyped = (a.entries.filter (AgendaEntry.isUnfiled indexed)).map AgendaEntry.index

variable {a : Agenda} {indexed : Bool} {leaves : List LeafPhase}

theorem lists_empty : Lists {} indexed [] := ⟨rfl, fun _ => rfl, rfl⟩

theorem Lists.length_entries (h : a.Lists indexed leaves) : a.entries.length = leaves.length := by
  rw [h.entries_eq, List.length_map, List.length_zipIdx]

theorem add_eq_filed {p : LeafPhase} {type : EventType} (h : p.rule.type = some type) :
    a.add true p =
      { a with
        entries := a.entries ++ [entryOf p a.entries.length]
        byType := addToType type a.entries.length a.byType } := by
  simp [add, h]

theorem add_eq_unfiled {p : LeafPhase}
    (h : (entryOf p a.entries.length).isUnfiled indexed = true) :
    a.add indexed p =
      { a with
        entries := a.entries ++ [entryOf p a.entries.length]
        untyped := a.untyped ++ [a.entries.length] } := by
  cases indexed with
  | false => cases htype : p.rule.type <;> simp [add, htype]
  | true =>
    have htype : p.rule.type = none := by simpa [AgendaEntry.isUnfiled, entryOf] using h
    simp [add, htype]

theorem Lists.add (h : a.Lists indexed leaves) (p : LeafPhase) :
    (a.add indexed p).Lists indexed (leaves ++ [p]) := by
  have hentries : a.entries ++ [entryOf p a.entries.length] =
      (leaves ++ [p]).zipIdx.map fun p => entryOf p.1 p.2 := by
    rw [List.zipIdx_append, List.map_append, ← h.entries_eq, h.length_entries]
    simp
  by_cases hunfiled : (entryOf p a.entries.length).isUnfiled indexed = true
  · rw [add_eq_unfiled hunfiled]
    refine ⟨hentries, fun t => ?_, ?_⟩
    · have hfiled : (entryOf p a.entries.length).isFiledUnder indexed t = false := by
        by_contra hfiled
        rw [AgendaEntry.isUnfiled_of_isFiledUnder (by simpa using hfiled)] at hunfiled
        cases hunfiled
      rw [h.filed t, List.filter_append, List.filter_singleton, hfiled]
      simp
    · rw [h.unfiled, List.filter_append, List.map_append, List.filter_singleton, hunfiled]
      rfl
  · simp only [AgendaEntry.isUnfiled, entryOf, Bool.or_eq_true, Bool.not_eq_true', not_or,
      Bool.not_eq_false, Bool.not_eq_true, Option.isNone_eq_false_iff, Option.isSome_iff_exists]
      at hunfiled
    obtain ⟨rfl, type, htype⟩ := hunfiled
    rw [add_eq_filed htype]
    refine ⟨hentries, fun t => ?_, ?_⟩
    · rw [lookup_addToType, h.filed t, List.filter_append, List.map_append]
      by_cases ht : type = t <;> simp [AgendaEntry.isFiledUnder, entryOf, htype, ht]
    · rw [h.unfiled, List.filter_append]
      simp [AgendaEntry.isUnfiled, entryOf, htype]

theorem Lists.foldl_add (h : a.Lists indexed leaves) (more : List LeafPhase) :
    (more.foldl (Agenda.add indexed) a).Lists indexed (leaves ++ more) := by
  induction more generalizing a leaves with
  | nil => simpa using h
  | cons p rest ih =>
    have hnext := ih (h.add p)
    rwa [List.append_assoc] at hnext

theorem lists_ofPhase (root : Phase) (indexed : Bool) :
    (ofPhase root indexed).Lists indexed root.leaves := lists_empty.foldl_add root.leaves

theorem Lists.eq_entryOf (h : a.Lists indexed leaves) {e : AgendaEntry} (he : e ∈ a.entries) :
    ∃ p i, e = entryOf p i := by
  rw [h.entries_eq] at he
  obtain ⟨⟨p, i⟩, -, rfl⟩ := List.mem_map.mp he
  exact ⟨p, i, rfl⟩

theorem Lists.map_phase (h : a.Lists indexed leaves) :
    a.entries.map AgendaEntry.phase = leaves := by
  rw [h.entries_eq, List.map_map]
  exact List.zipIdx_map_fst 0 leaves

theorem Lists.entry_at_index (h : a.Lists indexed leaves) {e : AgendaEntry} (he : e ∈ a.entries) :
    a.entries[e.index]? = some e := by
  rw [h.entries_eq] at he ⊢
  obtain ⟨⟨p, i⟩, hp, rfl⟩ := List.mem_map.mp he
  rw [List.getElem?_map, List.getElem?_zipIdx]
  rw [List.mem_zipIdx_iff_getElem?] at hp
  simp only [entryOf] at hp ⊢
  rw [hp]
  simp

theorem Lists.index_ascending (h : a.Lists indexed leaves) :
    a.entries.Pairwise fun e f => e.index < f.index := by
  have hrange : a.entries.map AgendaEntry.index = List.range leaves.length := by
    rw [h.entries_eq, List.map_map, List.range_eq_range', ← List.zipIdx_map_snd]
    rfl
  have hpairwise := List.pairwise_lt_range (n := leaves.length)
  rw [← hrange, List.pairwise_map] at hpairwise
  exact hpairwise

theorem Lists.positions_cursor (h : a.Lists indexed leaves) (type : EventType) :
    (a.cursor type).positions = (a.entries.filter fun e =>
      e.isFiledUnder indexed type || e.isUnfiled indexed).map AgendaEntry.index := by
  have hdisjoint : ∀ e ∈ a.entries,
      e.isFiledUnder indexed type = true → e.isUnfiled indexed = false :=
    fun e _ => AgendaEntry.isUnfiled_of_isFiledUnder
  rw [cursor, h.filed type, h.unfiled]
  exact AgendaCursor.positions_merge h.index_ascending hdisjoint

/-- An event meets, in order, the entries that are filed under its type or under none. -/
theorem Lists.candidates_eq (h : a.Lists indexed leaves) (type : EventType) :
    a.candidates type = a.entries.filter fun e =>
      e.isFiledUnder indexed type || e.isUnfiled indexed := by
  rw [candidates, h.positions_cursor, List.filterMap_map]
  have hfound : ∀ e ∈ a.entries.filter fun e => e.isFiledUnder indexed type || e.isUnfiled indexed,
      a.entries[e.index]? = some e := fun e he => h.entry_at_index (List.mem_filter.mp he).1
  exact (List.filterMap_congr hfound).trans List.filterMap_some

end Agenda

end BoardGame
