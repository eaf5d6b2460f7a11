import BoardGame.Proofs.Phase.Agenda
import Mathlib.Data.Finset.Card

/-!
How a cursor goes through an agenda. What it has come to and what it will come to make up the candidates
of its event, wherever it stands, and it always knows how many are left; every position that it comes to
is that of an entry. The candidates are those that a full scan would not find to be made for another type.
-/

namespace BoardGame

namespace AgendaCursor

/-- From one cursor to another, with the positions come to on the way. -/
inductive Visits : AgendaCursor → List Nat → AgendaCursor → Prop
  | here (q) : Visits q [] q
  | next {q r last i visited} : q.next? = some (i, r) → Visits r visited last →
      Visits q (i :: visited) last

variable {q r : AgendaCursor} {visited : List Nat}

theorem Visits.positions_eq (h : Visits q visited r) : q.positions = visited ++ r.positions := by
  induction h with
  | here q => rfl
  | next hnext _ ih => rw [positions_of_next? hnext, ih, List.cons_append]

theorem remaining_of_next?_eq_none (h : q.next? = none) : q.remaining = 0 := by
  obtain ⟨typed, untyped⟩ := q
  cases typed with
  | nil =>
    cases untyped with
    | nil => rfl
    | cons u untyped => cases h
  | cons t typed =>
    cases untyped with
    | nil => cases h
    | cons u untyped =>
      rw [next?] at h
      split at h <;> cases h

theorem positions_of_next?_eq_none (h : q.next? = none) : q.positions = [] := by
  rw [positions, remaining_of_next?_eq_none h, drain]

theorem exists_visits_end (q : AgendaCursor) : ∃ last, Visits q q.positions last ∧ last.next? = none := by
  induction hn : q.remaining generalizing q with
  | zero =>
    cases hnext : q.next? with
    | none =>
      rw [positions_of_next?_eq_none hnext]
      exact ⟨q, .here q, hnext⟩
    | some step =>
      rw [remaining_of_next? hnext] at hn
      cases hn
  | succ n ih =>
    cases hnext : q.next? with
    | none =>
      rw [remaining_of_next?_eq_none hnext] at hn
      cases hn
    | some step =>
      obtain ⟨i, r⟩ := step
      rw [remaining_of_next? hnext] at hn
      obtain ⟨last, hvisits, hend⟩ := ih r (Nat.succ.inj hn)
      rw [positions_of_next? hnext]
      exact ⟨last, .next hnext hvisits, hend⟩

theorem Visits.remaining_eq (h : Visits q visited r) : q.remaining = visited.length + r.remaining := by
  induction h with
  | here q => rw [List.length_nil, Nat.zero_add]
  | next hnext _ ih =>
    rw [remaining_of_next? hnext, ih, List.length_cons]
    omega

theorem length_positions (q : AgendaCursor) : q.positions.length = q.remaining := by
  obtain ⟨last, hvisits, hend⟩ := q.exists_visits_end
  rw [hvisits.remaining_eq, remaining_of_next?_eq_none hend, Nat.add_zero]

end AgendaCursor

namespace Agenda

/-- From one cursor to another, with the entries come to on the way: there is one at each position. -/
inductive Yields (a : Agenda) : AgendaCursor → List AgendaEntry → AgendaCursor → Prop
  | here (q) : Yields a q [] q
  | next {q r last i entry yielded} : q.next? = some (i, r) → a.entries[i]? = some entry →
      Yields a r yielded last → Yields a q (entry :: yielded) last

variable {a : Agenda} {indexed : Bool} {leaves : List LeafPhase}

theorem yields_of_visits {q r : AgendaCursor} {yielded : List AgendaEntry}
    (hfound : ∀ e ∈ yielded, a.entries[e.index]? = some e)
    (h : q.Visits (yielded.map AgendaEntry.index) r) : a.Yields q yielded r := by
  induction yielded generalizing q with
  | nil =>
    cases h
    exact .here _
  | cons e rest ih =>
    obtain ⟨he, hrest⟩ := List.forall_mem_cons.mp hfound
    cases h with
    | next hnext hvisits => exact .next hnext he (ih hrest hvisits)

/-- Wherever a cursor stands, it has yielded the front of the candidates and will yield the others. -/
theorem Lists.yields (h : a.Lists indexed leaves) {type : EventType} {visited : List Nat}
    {q : AgendaCursor} (hvisits : (a.cursor type).Visits visited q) :
    ∃ yielded rest last, a.candidates type = yielded ++ rest ∧
      a.Yields (a.cursor type) yielded q ∧ a.Yields q rest last ∧ last.next? = none ∧
      q.remaining = rest.length := by
  have hpositions : visited ++ q.positions = (a.candidates type).map AgendaEntry.index := by
    rw [h.candidates_eq, ← h.positions_cursor, hvisits.positions_eq]
  have hfound : ∀ e ∈ a.candidates type, a.entries[e.index]? = some e := by
    intro e he
    rw [h.candidates_eq] at he
    exact h.entry_at_index (List.mem_filter.mp he).1
  obtain ⟨yielded, rest, hsplit, rfl, hrest⟩ := List.map_eq_append_iff.mp hpositions.symm
  rw [hsplit, List.forall_mem_append] at hfound
  obtain ⟨last, htoEnd, hend⟩ := q.exists_visits_end
  rw [← hrest] at htoEnd
  refine ⟨yielded, rest, last, hsplit, yields_of_visits hfound.1 hvisits,
    yields_of_visits hfound.2 htoEnd, hend, ?_⟩
  rw [← q.length_positions, ← hrest, List.length_map]

/-! ### Types of the index -/

theorem map_fst_addToType {type : EventType} {i : Nat} {l : List (EventType × List Nat)} :
    (addToType type i l).map Prod.fst =
      if type ∈ l.map Prod.fst then l.map Prod.fst else l.map Prod.fst ++ [type] := by
  induction l with
  | nil => rfl
  | cons hd rest ih =>
    obtain ⟨t, indexes⟩ := hd
    rw [addToType]
    by_cases ht : t = type
    · subst ht
      simp
    · rw [if_neg ht, List.map_cons, ih]
      by_cases hmem : type ∈ rest.map Prod.fst
      · have hknown : type ∈ ((t, indexes) :: rest).map Prod.fst := List.mem_cons_of_mem _ hmem
        rw [if_pos hmem, if_pos hknown]
        rfl
      · have hnew : type ∉ ((t, indexes) :: rest).map Prod.fst :=
          List.not_mem_cons_of_ne_of_not_mem (Ne.symm ht) hmem
        rw [if_neg hmem, if_neg hnew]
        rfl

/-- The types for which some rules are made, each as often as a rule is made for it. -/
def declaredTypes (leaves : List LeafPhase) : List EventType := leaves.filterMap fun p => p.rule.type

/-- An agenda whose index has an entry for each of some types, and one entry only. -/
structure Indexes (a : Agenda) (types : List EventType) : Prop where
  nodup : (a.byType.map Prod.fst).Nodup
  mem_iff : ∀ type, type ∈ a.byType.map Prod.fst ↔ type ∈ types

theorem Indexes.add {types : List EventType} (h : a.Indexes types) (p : LeafPhase) :
    (a.add true p).Indexes (types ++ declaredTypes [p]) := by
  cases htype : p.rule.type with
  | none =>
    have hsame : (a.add true p).byType = a.byType := by simp [Agenda.add, htype]
    have hnothing : declaredTypes [p] = [] := by simp [declaredTypes, htype]
    rw [hnothing, List.append_nil]
    exact ⟨hsame ▸ h.nodup, hsame ▸ h.mem_iff⟩
  | some type =>
    have hfiled : (a.add true p).byType = addToType type a.entries.length a.byType := by
      rw [add_eq_filed htype]
    have hone : declaredTypes [p] = [type] := by simp [declaredTypes, htype]
    rw [hone]
    constructor
    · rw [hfiled, map_fst_addToType]
      split
      · exact h.nodup
      · rename_i hnew
        exact List.nodup_append_comm.mp (List.nodup_cons.mpr ⟨hnew, h.nodup⟩)
    · intro t
      rw [hfiled, map_fst_addToType, List.mem_append, List.mem_singleton, ← h.mem_iff]
      split
      · rename_i hknown
        refine ⟨Or.inl, ?_⟩
        rintro (ht | rfl)
        · exact ht
        · exact hknown
      · rw [List.mem_append, List.mem_singleton]

theorem Indexes.foldl_add {types : List EventType} (h : a.Indexes types) (more : List LeafPhase) :
    (more.foldl (Agenda.add true) a).Indexes (types ++ declaredTypes more) := by
  induction more generalizing a types with
  | nil => simpa [declaredTypes] using h
  | cons p rest ih =>
    have hnext := ih (h.add p)
    rwa [List.append_assoc, declaredTypes, declaredTypes, ← List.filterMap_append] at hnext

theorem indexes_ofPhase (root : Phase) :
    (ofPhase root true).Indexes (declaredTypes root.leaves) := by
  have hnew : Indexes {} [] := ⟨List.nodup_nil, fun _ => Iff.rfl⟩
  exact hnew.foldl_add root.leaves

theorem Indexes.indexedTypes_eq {types : List EventType} (h : a.Indexes types) :
    a.indexedTypes = types.toFinset.card := by
  have hsame : (a.byType.map Prod.fst).toFinset = types.toFinset := by
    ext type
    rw [List.mem_toFinset, List.mem_toFinset, h.mem_iff]
  rw [← hsame, List.toFinset_card_of_nodup h.nodup, List.length_map, indexedTypes]

theorem byType_foldl_add_unindexed (more : List LeafPhase) :
    (more.foldl (add false) a).byType = a.byType := by
  induction more generalizing a with
  | nil => rfl
  | cons p rest ih =>
    have hsame : (a.add false p).byType = a.byType := by cases htype : p.rule.type <;> simp [add, htype]
    rw [List.foldl_cons, ih, hsame]

/-- An agenda hands to an event, once each and in ascending order, the entries made for no type or for
the event's own, or without an index all of them. A cursor that has come to any point has yielded the
front of these, finds an entry at every position that is left, and tells how many there are. The index
counts each type that the rules are made for once. -/
theorem candidates_merge_like_scan (root : Phase) (event : Event) :
    (∀ indexed, let a := ofPhase root indexed
      (a.entries.map AgendaEntry.phase = root.leaves ∧ ∀ x ∈ a.entries, x.type = x.phase.rule.type) ∧
      (a.candidates event.type).Pairwise (fun x y => x.index < y.index) ∧
      ∀ visited q, (a.cursor event.type).Visits visited q → ∃ yielded rest last,
        a.candidates event.type = yielded ++ rest ∧ a.Yields (a.cursor event.type) yielded q ∧
        a.Yields q rest last ∧ last.next? = none ∧ q.remaining = rest.length) ∧
    (ofPhase root true).candidates event.type =
      (ofPhase root true).entries.filter (fun x => x.type = none ∨ x.type = some event.type) ∧
    (ofPhase root false).candidates event.type = (ofPhase root false).entries ∧
    (ofPhase root true).indexedTypes = (declaredTypes root.leaves).toFinset.card ∧
    (ofPhase root false).indexedTypes = 0 := by
  refine ⟨fun indexed => ?_, ?_, ?_, (indexes_ofPhase root).indexedTypes_eq, ?_⟩
  · have hlists := lists_ofPhase root indexed
    refine ⟨⟨hlists.map_phase, fun x hx => ?_⟩, ?_, fun visited q hvisits => hlists.yields hvisits⟩
    · obtain ⟨p, i, rfl⟩ := hlists.eq_entryOf hx
      rfl
    · rw [hlists.candidates_eq]
      exact hlists.index_ascending.filter _
  · rw [(lists_ofPhase root true).candidates_eq]
    apply List.filter_congr
    intro x _
    cases htype : x.type <;> simp [AgendaEntry.isFiledUnder, AgendaEntry.isUnfiled, htype]
  · rw [(lists_ofPhase root false).candidates_eq, List.filter_eq_self]
    intro x _
    rfl
  · rw [indexedTypes, ofPhase, byType_foldl_add_unindexed]
    rfl

def northBell : Event := .custom { typeName := "north::Bell", label := some "Bell", text := "north" }
def southBell : Event := .custom { typeName := "south::Bell", label := some "Bell", text := "south" }

/-- Leaves for either bell, which are shown by one name, and for every event. -/
def bells : Phase :=
  .group "root" [
    .leaf ⟨"dawn", 0, .always, Rule.on northBell.type "rise"⟩,
    .leaf ⟨"day", 1, .always, Rule.new "work"⟩,
    .group "evening" [
      .leaf ⟨"dusk", 2, .always, Rule.on southBell.type "gather"⟩,
      .leaf ⟨"vespers", 3, .always, Rule.on northBell.type "pray"⟩],
    .leaf ⟨"night", 4, .always, Rule.new "sleep"⟩]

/-- Half-way through the leaves for the northern bell two are left, and the southern one is passed over. -/
theorem bells_half_way : northBell.name = southBell.name ∧ northBell.type ≠ southBell.type ∧
    (ofPhase bells true).indexedTypes = 2 ∧
    ∃ q yielded rest last, ((ofPhase bells true).cursor northBell.type).Visits [0, 1] q ∧
      (ofPhase bells true).candidates northBell.type = yielded ++ rest ∧
      (ofPhase bells true).Yields ((ofPhase bells true).cursor northBell.type) yielded q ∧
      (ofPhase bells true).Yields q rest last ∧ last.next? = none ∧
      q.remaining = 2 ∧ rest.length = 2 := by
  obtain ⟨hpoints, -, -, htypes, -⟩ := candidates_merge_like_scan bells northBell
  have hvisits : ((ofPhase bells true).cursor northBell.type).Visits [0, 1] ⟨[3], [4]⟩ :=
    .next rfl (.next rfl (.here _))
  obtain ⟨yielded, rest, last, hsplit, hyielded, hrest, hend, hleft⟩ := (hpoints true).2.2 _ _ hvisits
  exact ⟨rfl, by decide, htypes.trans (by decide), _, yielded, rest, last, hvisits, hsplit, hyielded,
    hrest, hend, rfl, hleft.symm⟩

end Agenda

end BoardGame
