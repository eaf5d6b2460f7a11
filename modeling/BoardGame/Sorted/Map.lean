import BoardGame.Sorted.Entries

/-!
Maps and sets with one canonical form: their entries in strictly ascending key order. Two maps are
equal exactly when all lookups agree, whatever writes and removals produced them.
-/

namespace BoardGame

structure SortedMap (κ α : Type) [KeyOrder κ] where
  entries : List (κ × α)
  sorted : Entries.Sorted entries

/-- A set is a map that stores nothing but its keys. -/
abbrev SortedSet (κ : Type) [KeyOrder κ] := SortedMap κ Unit

namespace SortedMap

variable {κ α : Type} [KeyOrder κ]

theorem ext_entries {m n : SortedMap κ α} (h : m.entries = n.entries) : m = n := by
  cases m
  cases n
  cases h
  rfl

instance [DecidableEq κ] [DecidableEq α] : DecidableEq (SortedMap κ α) := fun m n =>
  decidable_of_iff (m.entries = n.entries) ⟨ext_entries, fun h => h ▸ rfl⟩

def empty : SortedMap κ α := ⟨[], Entries.sorted_nil⟩

instance : Inhabited (SortedMap κ α) := ⟨empty⟩

def insert (m : SortedMap κ α) (k : κ) (x : α) : SortedMap κ α :=
  ⟨Entries.insert k x m.entries, Entries.sorted_insert k x m.sorted⟩

/-- Writes in order; a later write to a key wins. -/
def ofList (l : List (κ × α)) : SortedMap κ α := ⟨Entries.ofList l, Entries.sorted_ofList l⟩

def keys (m : SortedMap κ α) : List κ := m.entries.map Prod.fst
def values (m : SortedMap κ α) : List α := m.entries.map Prod.snd
def size (m : SortedMap κ α) : Nat := m.entries.length
def isEmpty (m : SortedMap κ α) : Bool := m.entries.isEmpty

/-- Keys come in strictly ascending order. -/
theorem sorted_keys (m : SortedMap κ α) :
    m.keys.Pairwise fun a b => KeyOrder.before a b = true := List.pairwise_map.mpr m.sorted

theorem keys_eq_nil_iff (m : SortedMap κ α) : m.keys = [] ↔ m.isEmpty = true := by
  rw [keys, isEmpty, List.map_eq_nil_iff, List.isEmpty_iff]

variable [DecidableEq κ]

def erase (m : SortedMap κ α) (k : κ) : SortedMap κ α :=
  ⟨Entries.erase k m.entries, Entries.sorted_erase k m.sorted⟩

def get? (m : SortedMap κ α) (k : κ) : Option α := Entries.lookup k m.entries
def contains (m : SortedMap κ α) (k : κ) : Bool := (m.get? k).isSome

@[simp] theorem get?_empty (k : κ) : (empty : SortedMap κ α).get? k = none := rfl

@[simp] theorem get?_insert_self (m : SortedMap κ α) (k : κ) (x : α) :
    (m.insert k x).get? k = some x := Entries.lookup_insert_self k x m.entries

theorem get?_insert_of_ne (m : SortedMap κ α) {k k' : κ} (x : α) (h : k' ≠ k) :
    (m.insert k x).get? k' = m.get? k' := Entries.lookup_insert_of_ne x h m.entries

theorem get?_insert (m : SortedMap κ α) (k k' : κ) (x : α) :
    (m.insert k x).get? k' = if k' = k then some x else m.get? k' := by
  by_cases h : k' = k
  · subst h
    simp
  · simp [h, get?_insert_of_ne]

@[simp] theorem get?_erase_self (m : SortedMap κ α) (k : κ) : (m.erase k).get? k = none :=
  Entries.lookup_erase_self k m.entries

theorem get?_erase_of_ne (m : SortedMap κ α) {k k' : κ} (h : k' ≠ k) :
    (m.erase k).get? k' = m.get? k' := Entries.lookup_erase_of_ne h m.entries

theorem get?_erase (m : SortedMap κ α) (k k' : κ) :
    (m.erase k).get? k' = if k' = k then none else m.get? k' := by
  by_cases h : k' = k
  · subst h
    simp
  · simp [h, get?_erase_of_ne]

theorem get?_eq_some_iff (m : SortedMap κ α) (k : κ) (x : α) :
    m.get? k = some x ↔ (k, x) ∈ m.entries :=
  ⟨Entries.mem_of_lookup, Entries.lookup_of_mem m.sorted⟩

theorem get?_ofList_eq_some_iff {l : List (κ × α)} (h : (l.map Prod.fst).Nodup) (k : κ) (x : α) :
    (ofList l).get? k = some x ↔ (k, x) ∈ l :=
  ⟨fun hfound => Entries.mem_ofList (Entries.mem_of_lookup hfound),
    Entries.lookup_foldl_insert_of_mem h⟩

/-- Where every item is kept under a key of its own, what is found under a key was made of its item. -/
theorem get?_ofList_map_eq_some_iff {β : Type} {l : List β} {key : β → κ} {f : β → α}
    (h : (l.map key).Nodup) (k : κ) (x : α) :
    (ofList (l.map fun a => (key a, f a))).get? k = some x ↔ ∃ a ∈ l, key a = k ∧ f a = x := by
  have hdistinct : ((l.map fun a => (key a, f a)).map Prod.fst).Nodup := by
    rw [List.map_map]
    exact h
  rw [get?_ofList_eq_some_iff hdistinct, List.mem_map]
  simp only [Prod.mk.injEq]

theorem mem_keys_iff (m : SortedMap κ α) (k : κ) : k ∈ m.keys ↔ (m.get? k).isSome = true := by
  rw [keys, List.mem_map, Option.isSome_iff_exists]
  constructor
  · rintro ⟨⟨k, x⟩, hmem, rfl⟩
    exact ⟨x, (m.get?_eq_some_iff k x).mpr hmem⟩
  · rintro ⟨x, hx⟩
    exact ⟨(k, x), (m.get?_eq_some_iff k x).mp hx, rfl⟩

/-- Maps with the same lookups are the same map. -/
theorem ext_get? {m n : SortedMap κ α} (h : ∀ k, m.get? k = n.get? k) : m = n :=
  ext_entries (Entries.eq_of_lookup_eq m.sorted n.sorted h)

end SortedMap

end BoardGame
