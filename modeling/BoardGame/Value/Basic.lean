import BoardGame.Value.Datum

/-!
Payload values of custom statuses and extras: canonical data. The engine never interprets them; a game
chooses their shape.
-/

namespace BoardGame

structure Value where
  datum : Datum
  canonical : datum.Canonical

namespace Value

theorem ext_datum {v w : Value} (h : v.datum = w.datum) : v = w := by
  cases v
  cases w
  cases h
  rfl

instance : DecidableEq Value := fun v w =>
  decidable_of_iff (v.datum = w.datum) ⟨ext_datum, fun h => h ▸ rfl⟩

def ofDatum (d : Datum) : Value := ⟨d.canonicalize, d.canonical_canonicalize⟩

theorem ofDatum_datum (v : Value) : ofDatum v.datum = v :=
  ext_datum (Datum.canonicalize_eq_self v.canonical)

def int (n : Int64) : Value := ⟨.int n, trivial⟩
def flag (b : Bool) : Value := ⟨.flag b, trivial⟩
def text (s : String) : Value := ⟨.text s, trivial⟩
def ints (items : List Int64) : Value := ⟨.ints items, trivial⟩
def texts (items : List String) : Value := ⟨.texts items, trivial⟩

instance : Inhabited Value := ⟨int 0⟩

def emptyRecord : Value := ⟨.record [], Entries.sorted_nil, trivial⟩

def asInt? (v : Value) : Option Int64 :=
  match v.datum with
  | .int n => some n
  | _ => none

def asFlag? (v : Value) : Option Bool :=
  match v.datum with
  | .flag b => some b
  | _ => none

def asText? (v : Value) : Option String :=
  match v.datum with
  | .text s => some s
  | _ => none

def asInts? (v : Value) : Option (List Int64) :=
  match v.datum with
  | .ints items => some items
  | _ => none

def asTexts? (v : Value) : Option (List String) :=
  match v.datum with
  | .texts items => some items
  | _ => none

/-- The fields of a record; any other value has none. -/
def fields (v : Value) : List (String × Datum) :=
  match v.datum with
  | .record fields => fields
  | _ => []

theorem sorted_fields (v : Value) : Entries.Sorted v.fields := by
  have h := v.canonical
  unfold fields
  cases hd : v.datum with
  | record fields =>
    rw [hd] at h
    exact h.1
  | _ => exact Entries.sorted_nil

theorem canonical_of_mem_fields (v : Value) {e : String × Datum} (he : e ∈ v.fields) :
    e.2.Canonical := by
  have h := v.canonical
  unfold fields at he
  cases hd : v.datum with
  | record fields =>
    rw [hd] at h he
    exact (Datum.canonicalFields_iff _).mp h.2 e he
  | _ =>
    rw [hd] at he
    simp at he

def field? (v : Value) (key : String) : Option Value :=
  match h : Entries.lookup key v.fields with
  | some d => some ⟨d, v.canonical_of_mem_fields (Entries.mem_of_lookup h)⟩
  | none => none

/-- The record with one field set; a value that is no record becomes a record of that field alone. -/
def withField (v : Value) (key : String) (x : Value) : Value where
  datum := .record (Entries.insert key x.datum v.fields)
  canonical := by
    refine ⟨Entries.sorted_insert _ _ v.sorted_fields, (Datum.canonicalFields_iff _).mpr ?_⟩
    intro e he
    rcases Entries.mem_insert he with rfl | he
    · exact x.canonical
    · exact v.canonical_of_mem_fields he

end Value

end BoardGame
