import Mathlib.Data.List.Nodup
import Mathlib.Logic.Unique

/-!
Checks that go through a list and stop at the first fault. Such a check accepts exactly the lists of which
every item passes; one that remembers the names it has seen accepts exactly the fresh ones.
-/

namespace BoardGame

variable {ε α β : Type}

theorem bind_eq_ok_iff {x : Except ε α} {f : α → Except ε β} {y : β} :
    (x >>= f) = .ok y ↔ ∃ a, x = .ok a ∧ f a = .ok y := by
  cases x with
  | error e => simp [bind, Except.bind]
  | ok a => simp [bind, Except.bind]

/-- Two steps succeed when the first does and the second does on what the first gives. -/
theorem exists_bind_iff {x : Except ε α} {f : α → Except ε β} :
    (∃ y, (x >>= f) = .ok y) ↔ ∃ a, x = .ok a ∧ ∃ y, f a = .ok y := by
  simp only [bind_eq_ok_iff]
  rw [exists_comm]
  simp only [exists_and_left]

theorem exists_pure_iff {a : α} : (∃ y, (pure a : Except ε α) = .ok y) ↔ True :=
  iff_true_intro ⟨a, rfl⟩

theorem ok_iff_of_ite {p : Prop} [Decidable p] {e : ε} :
    (if p then (Except.ok () : Except ε Unit) else .error e) = .ok () ↔ p := by
  by_cases h : p <;> simp [h]

theorem forM_eq_ok_iff {check : α → Except ε Unit} {l : List α} :
    l.forM check = .ok () ↔ ∀ a ∈ l, check a = .ok () := by
  induction l with
  | nil => simp [pure, Except.pure]
  | cons a rest ih =>
    rw [List.forM_eq_forM, List.forM_cons, bind_eq_ok_iff, Unique.exists_iff, List.forall_mem_cons]
    exact and_congr_right fun _ => ih

/-- Names that do not repeat and that were not seen before. -/
def Fresh (seen l : List α) : Prop := l.Nodup ∧ ∀ a ∈ l, a ∉ seen

variable {seen l m : List α} {a : α}

theorem fresh_nil : Fresh seen [] := ⟨List.nodup_nil, List.forall_mem_nil _⟩

theorem fresh_of_nothing_seen_iff : Fresh [] l ↔ l.Nodup := by simp [Fresh]

theorem fresh_of_one_seen_iff : Fresh [a] l ↔ l.Nodup ∧ a ∉ l := by
  unfold Fresh
  simp only [List.mem_singleton]
  constructor
  · rintro ⟨hdistinct, hne⟩
    exact ⟨hdistinct, fun ha => hne a ha rfl⟩
  · rintro ⟨hdistinct, hnew⟩
    refine ⟨hdistinct, ?_⟩
    rintro c hc rfl
    exact hnew hc

theorem fresh_singleton_iff : Fresh seen [a] ↔ a ∉ seen := by simp [Fresh]

/-- What comes later must differ from everything that came before it, seen earlier or in the same list. -/
theorem fresh_append_iff : Fresh seen (l ++ m) ↔ Fresh seen l ∧ Fresh (l.reverse ++ seen) m := by
  unfold Fresh
  rw [List.nodup_append, List.forall_mem_append]
  simp only [List.mem_append, List.mem_reverse, not_or]
  constructor
  · rintro ⟨⟨hl, hm, hdisjoint⟩, hlseen, hmseen⟩
    refine ⟨⟨hl, hlseen⟩, hm, fun a ha => ⟨fun hal => ?_, hmseen a ha⟩⟩
    exact hdisjoint a hal a ha rfl
  · rintro ⟨⟨hl, hlseen⟩, hm, hnew⟩
    refine ⟨⟨hl, hm, ?_⟩, hlseen, fun a ha => (hnew a ha).2⟩
    rintro a hal _ ham rfl
    exact (hnew a ham).1 hal

theorem fresh_cons_iff : Fresh seen (a :: l) ↔ a ∉ seen ∧ Fresh (a :: seen) l := by
  have happend : Fresh seen ([a] ++ l) ↔ Fresh seen [a] ∧ Fresh ([a].reverse ++ seen) l :=
    fresh_append_iff
  rwa [fresh_singleton_iff] at happend

end BoardGame
