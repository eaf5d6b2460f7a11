/-!
Strict linear orders that can be run, for the keys of sorted maps. Text is ordered by code point,
pairs are ordered by their first component and then by their second.
-/

namespace BoardGame

/-- A decidable strict order in which any two keys are comparable. -/
class KeyOrder (κ : Type) where
  before : κ → κ → Bool
  irrefl (a : κ) : before a a = false
  trans {a b c : κ} : before a b = true → before b c = true → before a c = true
  connex {a b : κ} : before a b = false → before b a = false → a = b

namespace KeyOrder

theorem asymm {κ : Type} [KeyOrder κ] {a b : κ} (h : before a b = true) : before b a = false := by
  cases hba : before b a with
  | false => rfl
  | true => simpa [irrefl] using trans h hba

theorem ne_of_before {κ : Type} [KeyOrder κ] {a b : κ} (h : before a b = true) : a ≠ b := by
  rintro rfl
  simp [irrefl] at h

end KeyOrder

instance : KeyOrder Nat where
  before a b := decide (a < b)
  irrefl a := by simp
  trans h k := by simp only [decide_eq_true_eq] at *; omega
  connex h k := by simp only [decide_eq_false_iff_not] at *; omega

instance : KeyOrder String where
  before a b := decide (a < b)
  irrefl a := by
    rw [decide_eq_false_iff_not]
    exact String.lt_irrefl a
  trans h k := by
    simp only [decide_eq_true_eq] at *
    exact String.lt_trans h k
  connex h k := by
    simp only [decide_eq_false_iff_not] at *
    exact String.le_antisymm (String.not_lt.mp k) (String.not_lt.mp h)

instance {α β : Type} [KeyOrder α] [KeyOrder β] : KeyOrder (α × β) where
  before a b :=
    KeyOrder.before a.1 b.1 || (!KeyOrder.before b.1 a.1 && KeyOrder.before a.2 b.2)
  irrefl a := by simp [KeyOrder.irrefl]
  trans {a b c} h k := by
    simp only [Bool.or_eq_true, Bool.and_eq_true, Bool.not_eq_true'] at *
    rcases h with h | ⟨h, h'⟩
    · rcases k with k | ⟨k, k'⟩
      · exact Or.inl (KeyOrder.trans h k)
      · cases hbc : KeyOrder.before b.1 c.1 with
        | true => exact Or.inl (KeyOrder.trans h hbc)
        | false => exact Or.inl (KeyOrder.connex hbc k ▸ h)
    · cases hab : KeyOrder.before a.1 b.1 with
      | true =>
        rcases k with k | ⟨k, k'⟩
        · exact Or.inl (KeyOrder.trans hab k)
        · cases hbc : KeyOrder.before b.1 c.1 with
          | true => exact Or.inl (KeyOrder.trans hab hbc)
          | false => exact Or.inl (KeyOrder.connex hbc k ▸ hab)
      | false =>
        have hfst := KeyOrder.connex hab h
        rw [hfst]
        rcases k with k | ⟨k, k'⟩
        · exact Or.inl k
        · exact Or.inr ⟨k, KeyOrder.trans h' k'⟩
  connex {a b} h k := by
    simp only [Bool.or_eq_false_iff, Bool.and_eq_false_iff, Bool.not_eq_false'] at *
    obtain ⟨h, h'⟩ := h
    obtain ⟨k, k'⟩ := k
    have hfst := KeyOrder.connex h k
    have hsnd : a.2 = b.2 := by
      rcases h' with h' | h'
      · rw [h'] at k
        contradiction
      · rcases k' with k' | k'
        · rw [k'] at h
          contradiction
        · exact KeyOrder.connex h' k'
    exact Prod.ext hfst hsnd

/-- Keys that an injection places in an ordered type are ordered there. -/
@[reducible] def KeyOrder.along {α κ : Type} [KeyOrder κ] (rank : α → κ)
    (injective : ∀ a b, rank a = rank b → a = b) : KeyOrder α where
  before a b := before (rank a) (rank b)
  irrefl a := irrefl (rank a)
  trans h k := trans h k
  connex h k := injective _ _ (connex h k)

end BoardGame
