import BoardGame.Sorted.Order

/-!
Association lists kept in strictly ascending key order. Insertion replaces the value of a key that is
already there, so a list of writes leaves the last value of every key. The main statements say what a
lookup sees after an insertion or a removal, that both keep the order, and that two ordered lists
with the same lookups are equal.
-/

namespace BoardGame.Entries

open KeyOrder

variable {κ α : Type}

section Lookup

variable [DecidableEq κ]

def lookup (k : κ) : List (κ × α) → Option α
  | [] => none
  | (k', y) :: rest => if k = k' then some y else lookup k rest

def erase (k : κ) (l : List (κ × α)) : List (κ × α) := l.filter fun e => !decide (e.1 = k)

theorem lookup_eq_none {k : κ} {l : List (κ × α)} (h : ∀ e ∈ l, e.1 ≠ k) : lookup k l = none := by
  induction l with
  | nil => rfl
  | cons hd rest ih =>
    have hne : k ≠ hd.1 := (h hd (List.mem_cons_self ..)).symm
    simp [lookup, hne, ih fun e he => h e (List.mem_cons_of_mem _ he)]

theorem mem_of_lookup {k : κ} {x : α} {l : List (κ × α)} (h : lookup k l = some x) :
    (k, x) ∈ l := by
  induction l with
  | nil => simp [lookup] at h
  | cons hd rest ih =>
    obtain ⟨k', y⟩ := hd
    rw [lookup] at h
    split at h
    · rename_i hk
      simp_all
    · exact List.mem_cons_of_mem _ (ih h)

/-- A table of a function, however often it lists a key. -/
theorem lookup_of_function {f : κ → α} {k : κ} {l : List (κ × α)} (h : ∀ e ∈ l, e.2 = f e.1) :
    lookup k l = if ∃ e ∈ l, e.1 = k then some (f k) else none := by
  induction l with
  | nil => rfl
  | cons hd rest ih =>
    obtain ⟨hhead, hrest⟩ := List.forall_mem_cons.mp h
    obtain ⟨k', y⟩ := hd
    by_cases hk : k = k'
    · subst hk
      rw [lookup, if_pos rfl, if_pos ⟨_, List.mem_cons_self .., rfl⟩]
      exact congrArg some hhead
    · have hkeys : (∃ e ∈ (k', y) :: rest, e.1 = k) ↔ ∃ e ∈ rest, e.1 = k := by
        constructor
        · rintro ⟨e, he, rfl⟩
          rcases List.mem_cons.mp he with rfl | he
          · exact absurd rfl hk
          · exact ⟨e, he, rfl⟩
        · rintro ⟨e, he, rfl⟩
          exact ⟨e, List.mem_cons_of_mem _ he, rfl⟩
      rw [lookup, if_neg hk, ih hrest]
      simp only [hkeys]

theorem lookup_erase_self (k : κ) (l : List (κ × α)) : lookup k (erase k l) = none :=
  lookup_eq_none fun e he => by simpa using (List.mem_filter.mp he).2

theorem lookup_erase_of_ne {k k' : κ} (h : k' ≠ k) (l : List (κ × α)) :
    lookup k' (erase k l) = lookup k' l := by
  unfold erase
  induction l with
  | nil => rfl
  | cons hd rest ih =>
    obtain ⟨k₁, y⟩ := hd
    by_cases hk : k₁ = k
    · subst hk
      simp [lookup, h, ih]
    · by_cases heq : k' = k₁ <;> simp [hk, lookup, heq, ih]

end Lookup

variable [KeyOrder κ]

/-- Strictly ascending keys; in particular no key occurs twice. -/
def Sorted (l : List (κ × α)) : Prop := l.Pairwise fun a b => before a.1 b.1 = true

def insert (k : κ) (x : α) : List (κ × α) → List (κ × α)
  | [] => [(k, x)]
  | (k', y) :: rest =>
    if before k k' then (k, x) :: (k', y) :: rest
    else if before k' k then (k', y) :: insert k x rest
    else (k, x) :: rest

/-- Writes in order; a later write to a key wins. -/
def ofList (l : List (κ × α)) : List (κ × α) := l.foldl (fun m e => insert e.1 e.2 m) []

theorem sorted_nil : Sorted ([] : List (κ × α)) := List.Pairwise.nil

theorem mem_insert {k : κ} {x : α} {l : List (κ × α)} {e : κ × α} (h : e ∈ insert k x l) :
    e = (k, x) ∨ e ∈ l := by
  induction l with
  | nil => simpa [insert] using h
  | cons hd rest ih =>
    obtain ⟨k', y⟩ := hd
    rw [insert] at h
    split at h
    · simpa using h
    · split at h
      · rcases List.mem_cons.mp h with h | h
        · simp [h]
        · rcases ih h with h | h <;> simp [h]
      · rcases List.mem_cons.mp h with h | h <;> simp [h]

theorem sorted_insert (k : κ) (x : α) {l : List (κ × α)} (h : Sorted l) :
    Sorted (insert k x l) := by
  induction l with
  | nil => simp [insert, Sorted]
  | cons hd rest ih =>
    obtain ⟨k', y⟩ := hd
    obtain ⟨hhead, hrest⟩ := List.pairwise_cons.mp h
    rw [insert]
    split
    · rename_i hk
      refine List.pairwise_cons.mpr ⟨?_, h⟩
      intro e he
      rcases List.mem_cons.mp he with rfl | he
      · exact hk
      · exact trans hk (hhead e he)
    · rename_i hk
      split
      · rename_i hk'
        refine List.pairwise_cons.mpr ⟨?_, ih hrest⟩
        intro e he
        rcases mem_insert he with rfl | he
        · exact hk'
        · exact hhead e he
      · rename_i hk'
        obtain rfl := connex (by simpa using hk) (by simpa using hk')
        exact List.pairwise_cons.mpr ⟨hhead, hrest⟩

theorem sorted_foldl_insert (l : List (κ × α)) {m : List (κ × α)} (h : Sorted m) :
    Sorted (l.foldl (fun m e => insert e.1 e.2 m) m) := by
  induction l generalizing m with
  | nil => exact h
  | cons e l ih => exact ih (sorted_insert e.1 e.2 h)

theorem sorted_ofList (l : List (κ × α)) : Sorted (ofList l) := sorted_foldl_insert l sorted_nil

theorem mem_foldl_insert {l m : List (κ × α)} {e : κ × α}
    (h : e ∈ l.foldl (fun m e => insert e.1 e.2 m) m) : e ∈ l ∨ e ∈ m := by
  induction l generalizing m with
  | nil => exact Or.inr h
  | cons d l ih =>
    rcases ih h with h | h
    · exact Or.inl (List.mem_cons_of_mem _ h)
    · rcases mem_insert h with rfl | h
      · exact Or.inl (List.mem_cons_self ..)
      · exact Or.inr h

/-- Nothing is stored that was not written. -/
theorem mem_ofList {l : List (κ × α)} {e : κ × α} (h : e ∈ ofList l) : e ∈ l := by
  rcases mem_foldl_insert h with h | h
  · exact h
  · simp at h

theorem insert_append_last {k : κ} {x : α} {l : List (κ × α)}
    (h : ∀ e ∈ l, before e.1 k = true) : insert k x l = l ++ [(k, x)] := by
  induction l with
  | nil => rfl
  | cons hd rest ih =>
    obtain ⟨k', y⟩ := hd
    have hk : before k' k = true := h _ (List.mem_cons_self ..)
    have ih' := ih fun e he => h e (List.mem_cons_of_mem _ he)
    simp [insert, asymm hk, hk, ih']

theorem foldl_insert_eq_append {l m : List (κ × α)} (h : Sorted (m ++ l)) :
    l.foldl (fun m e => insert e.1 e.2 m) m = m ++ l := by
  induction l generalizing m with
  | nil => simp
  | cons e l ih =>
    have hlast : insert e.1 e.2 m = m ++ [e] := by
      apply insert_append_last
      intro d hd
      exact (List.pairwise_append.mp h).2.2 d hd e (List.mem_cons_self ..)
    rw [List.foldl_cons, hlast, ih]
    · simp
    · simpa using h

/-- Writing a sorted list entry by entry gives it back. -/
theorem ofList_eq_self {l : List (κ × α)} (h : Sorted l) : ofList l = l := by
  have happend : Sorted ([] ++ l) := h
  exact foldl_insert_eq_append happend

section Lookup

variable [DecidableEq κ]

theorem sorted_erase (k : κ) {l : List (κ × α)} (h : Sorted l) : Sorted (erase k l) :=
  List.Pairwise.filter _ h

theorem lookup_of_mem {k : κ} {x : α} {l : List (κ × α)} (hl : Sorted l) (h : (k, x) ∈ l) :
    lookup k l = some x := by
  induction l with
  | nil => simp at h
  | cons hd rest ih =>
    obtain ⟨k', y⟩ := hd
    obtain ⟨hhead, hrest⟩ := List.pairwise_cons.mp hl
    rcases List.mem_cons.mp h with h | h
    · obtain ⟨rfl, rfl⟩ := Prod.mk.inj h
      simp [lookup]
    · have hne : k ≠ k' := (ne_of_before (hhead _ h)).symm
      simp [lookup, hne, ih hrest h]

theorem lookup_insert_self (k : κ) (x : α) (l : List (κ × α)) :
    lookup k (insert k x l) = some x := by
  induction l with
  | nil => simp [insert, lookup]
  | cons hd rest ih =>
    obtain ⟨k', y⟩ := hd
    rw [insert]
    split
    · simp [lookup]
    · split
      · rename_i hk'
        simp [lookup, (ne_of_before hk').symm, ih]
      · simp [lookup]

theorem lookup_insert_of_ne {k k' : κ} (x : α) (h : k' ≠ k) (l : List (κ × α)) :
    lookup k' (insert k x l) = lookup k' l := by
  induction l with
  | nil => simp [insert, lookup, h]
  | cons hd rest ih =>
    obtain ⟨k₁, y⟩ := hd
    rw [insert]
    split
    · simp [lookup, h]
    · rename_i hk
      split
      · by_cases heq : k' = k₁ <;> simp [lookup, heq, ih]
      · rename_i hk'
        obtain rfl := connex (by simpa using hk) (by simpa using hk')
        simp [lookup, h]

theorem lookup_foldl_insert_of_notMem {k : κ} {l m : List (κ × α)} (h : k ∉ l.map Prod.fst) :
    lookup k (l.foldl (fun m e => insert e.1 e.2 m) m) = lookup k m := by
  induction l generalizing m with
  | nil => rfl
  | cons e l ih =>
    rw [List.map_cons, List.mem_cons, not_or] at h
    rw [List.foldl_cons, ih h.2, lookup_insert_of_ne e.2 h.1]

/-- When no key is written twice, what was written stays. -/
theorem lookup_foldl_insert_of_mem {k : κ} {x : α} {l m : List (κ × α)}
    (hdistinct : (l.map Prod.fst).Nodup) (h : (k, x) ∈ l) :
    lookup k (l.foldl (fun m e => insert e.1 e.2 m) m) = some x := by
  induction l generalizing m with
  | nil => simp at h
  | cons e l ih =>
    obtain ⟨hnew, hrest⟩ := List.nodup_cons.mp hdistinct
    rw [List.foldl_cons]
    rcases List.mem_cons.mp h with rfl | h
    · rw [lookup_foldl_insert_of_notMem hnew, lookup_insert_self]
    · exact ih hrest h

/-- A sorted list is determined by its lookups. -/
theorem eq_of_lookup_eq {l m : List (κ × α)} (hl : Sorted l) (hm : Sorted m)
    (h : ∀ k, lookup k l = lookup k m) : l = m := by
  induction l generalizing m with
  | nil =>
    cases m with
    | nil => rfl
    | cons e m =>
      have := h e.1
      simp [lookup] at this
  | cons d l ih =>
    obtain ⟨kd, xd⟩ := d
    obtain ⟨hdl, hl'⟩ := List.pairwise_cons.mp hl
    cases m with
    | nil =>
      have := h kd
      simp [lookup] at this
    | cons e m =>
      obtain ⟨ke, xe⟩ := e
      obtain ⟨hem, hm'⟩ := List.pairwise_cons.mp hm
      have hd : (kd, xd) ∈ (ke, xe) :: m := mem_of_lookup (by rw [← h kd]; simp [lookup])
      have he : (ke, xe) ∈ (kd, xd) :: l := mem_of_lookup (by rw [h ke]; simp [lookup])
      have hkey : (kd, xd) = (ke, xe) := by
        rcases List.mem_cons.mp hd with hd | hd
        · exact hd
        · rcases List.mem_cons.mp he with he | he
          · exact he.symm
          · have := asymm (hem _ hd)
            rw [hdl _ he] at this
            contradiction
      obtain ⟨rfl, rfl⟩ := Prod.mk.inj hkey
      congr 1
      apply ih hl' hm'
      intro k
      by_cases hk : k = kd
      · subst hk
        rw [lookup_eq_none fun e he => (ne_of_before (hdl e he)).symm,
          lookup_eq_none fun e he => (ne_of_before (hem e he)).symm]
      · simpa [lookup, hk] using h k

end Lookup

end BoardGame.Entries
