import BoardGame.Sorted.Map

/-!
Payload data as it is written down: numbers, flags, texts, lists of numbers or texts, and records of
named data. A datum is canonical when the fields of every record in it are in ascending order;
`canonicalize` writes the fields of each record in their order, so that a later field of one name
wins, and leaves canonical data alone.
-/

namespace BoardGame

inductive Datum where
  | int (n : Int64)
  | flag (b : Bool)
  | text (s : String)
  | ints (items : List Int64)
  | texts (items : List String)
  | record (fields : List (String × Datum))
  deriving Inhabited

namespace Datum

mutual

def decEq : (a b : Datum) → Decidable (a = b)
  | .int m, .int n => decidable_of_iff (m = n) (by simp)
  | .flag a, .flag b => decidable_of_iff (a = b) (by simp)
  | .text s, .text t => decidable_of_iff (s = t) (by simp)
  | .ints l, .ints m => decidable_of_iff (l = m) (by simp)
  | .texts l, .texts m => decidable_of_iff (l = m) (by simp)
  | .record l, .record m =>
    match decEqFields l m with
    | .isTrue h => .isTrue (by rw [h])
    | .isFalse h => .isFalse (by simpa using h)
  | .int _, .flag _ | .int _, .text _ | .int _, .ints _ | .int _, .texts _ | .int _, .record _
  | .flag _, .int _ | .flag _, .text _ | .flag _, .ints _ | .flag _, .texts _ | .flag _, .record _
  | .text _, .int _ | .text _, .flag _ | .text _, .ints _ | .text _, .texts _ | .text _, .record _
  | .ints _, .int _ | .ints _, .flag _ | .ints _, .text _ | .ints _, .texts _ | .ints _, .record _
  | .texts _, .int _ | .texts _, .flag _ | .texts _, .text _ | .texts _, .ints _
  | .texts _, .record _ | .record _, .int _ | .record _, .flag _ | .record _, .text _
  | .record _, .ints _ | .record _, .texts _ => .isFalse (by simp)

def decEqFields : (l m : List (String × Datum)) → Decidable (l = m)
  | [], [] => .isTrue rfl
  | [], _ :: _ => .isFalse (by simp)
  | _ :: _, [] => .isFalse (by simp)
  | (k, x) :: l, (k', y) :: m =>
    if hk : k = k' then
      match decEq x y with
      | .isTrue hx =>
        match decEqFields l m with
        | .isTrue hl => .isTrue (by rw [hk, hx, hl])
        | .isFalse hl => .isFalse (by simp [hl])
      | .isFalse hx => .isFalse (by simp [hx])
    else .isFalse (by simp [hk])

end

instance : DecidableEq Datum := decEq

mutual

def Canonical : Datum → Prop
  | .record fields => Entries.Sorted fields ∧ CanonicalFields fields
  | _ => True

def CanonicalFields : List (String × Datum) → Prop
  | [] => True
  | (_, x) :: rest => Canonical x ∧ CanonicalFields rest

end

mutual

def canonicalize : Datum → Datum
  | .record fields => .record (Entries.ofList (canonicalizeFields fields))
  | .int n => .int n
  | .flag b => .flag b
  | .text s => .text s
  | .ints items => .ints items
  | .texts items => .texts items

def canonicalizeFields : List (String × Datum) → List (String × Datum)
  | [] => []
  | (k, x) :: rest => (k, canonicalize x) :: canonicalizeFields rest

end

theorem canonicalFields_iff (fields : List (String × Datum)) :
    CanonicalFields fields ↔ ∀ e ∈ fields, Canonical e.2 := by
  induction fields with
  | nil => simp [CanonicalFields]
  | cons e rest ih => simp [CanonicalFields, ih]

mutual

theorem canonical_canonicalize : (x : Datum) → (canonicalize x).Canonical
  | .record fields => by
    refine ⟨Entries.sorted_ofList _, (canonicalFields_iff _).mpr ?_⟩
    intro e he
    exact (canonicalFields_iff _).mp (canonicalFields_canonicalizeFields fields) e
      (Entries.mem_ofList he)
  | .int _ | .flag _ | .text _ | .ints _ | .texts _ => trivial

theorem canonicalFields_canonicalizeFields :
    (fields : List (String × Datum)) → CanonicalFields (canonicalizeFields fields)
  | [] => trivial
  | (_, x) :: rest => ⟨canonical_canonicalize x, canonicalFields_canonicalizeFields rest⟩

end

mutual

/-- Canonical data is left as it is. -/
theorem canonicalize_eq_self : {x : Datum} → x.Canonical → canonicalize x = x
  | .record fields, h => by
    simp only [canonicalize]
    rw [canonicalizeFields_eq_self h.2, Entries.ofList_eq_self h.1]
  | .int _, _ | .flag _, _ | .text _, _ | .ints _, _ | .texts _, _ => rfl

theorem canonicalizeFields_eq_self :
    {fields : List (String × Datum)} → CanonicalFields fields → canonicalizeFields fields = fields
  | [], _ => rfl
  | (k, x) :: rest, h => by
    simp only [canonicalizeFields]
    rw [canonicalize_eq_self h.1, canonicalizeFields_eq_self h.2]

end

end Datum

end BoardGame
