import BoardGame.Sorted.Map

/-!
Structured documents and the forms that values take in them. Numbers are kept only as far as the
forms need them: an integer of 64 bits is itself, every other number is merely `real`.

A record may be read from an object, by name, or from an array, by position. A sum type is read from
the name of a case or from an object whose only key is that name.
-/

namespace BoardGame

inductive Json where
  | null
  | bool (b : Bool)
  | int (n : Int)
  | real
  | text (s : String)
  | list (items : List Json)
  | object (fields : List (String × Json))
  deriving Inhabited, Repr

class JsonForm (α : Type) where
  toJson : α → Json
  ofJson? : Json → Option α

export JsonForm (toJson ofJson?)

namespace Json

/-- A number written without fraction or exponent; beyond 64 bits it no longer counts as an integer. -/
def ofInteger (n : Int) : Json :=
  if Int64.minValue.toInt ≤ n ∧ n < UInt64.size then .int n else .real

/-- A number that has no sign and fits into so many bits. -/
def word? (bits : Nat) : Json → Option Nat
  | .int n => if 0 ≤ n ∧ n < (1 <<< bits : Nat) then some n.toNat else none
  | _ => none

/-- The named fields of an object; other keys are ignored. -/
def named? (names : List String) : Json → Option (List (Option Json))
  | .object fields => some (names.map fun name => Entries.lookup name fields)
  | _ => none

/-- The fields of a record: an object gives them by name, an array by position and completely. -/
def fields? (names : List String) : Json → Option (List (Option Json))
  | .list items => if items.length = names.length then some (items.map some) else none
  | document => document.named? names

/-- The fields of a record in which each may be left out, in an array only from some point on. -/
def partialFields? (names : List String) : Json → Option (List (Option Json))
  | .list items =>
    if items.length ≤ names.length then
      some (items.map some ++ List.replicate (names.length - items.length) none)
    else none
  | document => document.named? names

def required? {α : Type} [JsonForm α] (field : Option Json) : Option α := field.bind ofJson?

/-- A missing field is read as its default. -/
def defaulted? {α : Type} [JsonForm α] (default : α) : Option Json → Option α
  | none => some default
  | some document => ofJson? document

/-- The case that a document names, with what it carries, if anything. -/
def case? : Json → Option (String × Option Json)
  | .text name => some (name, none)
  | .object [(name, carried)] => some (name, some carried)
  | _ => none

/-- A case without contents carries nothing, or null. -/
def isBare : Option Json → Bool
  | none | some .null => true
  | _ => false

def tagged (name : String) (carried : Json) : Json := .object [(name, carried)]

/-- One of finitely many named cases without contents. -/
def ofTable? {α : Type} (table : List (String × α)) (document : Json) : Option α := do
  let (name, carried) ← document.case?
  if isBare carried then Entries.lookup name table else none

end Json

instance : JsonForm Json := ⟨id, some⟩

instance : JsonForm Bool where
  toJson := .bool
  ofJson?
    | .bool b => some b
    | _ => none

instance : JsonForm String where
  toJson := .text
  ofJson?
    | .text s => some s
    | _ => none

instance : JsonForm Int64 where
  toJson n := .int n.toInt
  ofJson?
    | .int n =>
      if Int64.minValue.toInt ≤ n ∧ n ≤ Int64.maxValue.toInt then some (Int64.ofInt n) else none
    | _ => none

instance : JsonForm UInt64 where
  toJson n := .int n.toNat
  ofJson? document := (document.word? 64).map UInt64.ofNat

instance : JsonForm UInt32 where
  toJson n := .int n.toNat
  ofJson? document := (document.word? 32).map UInt32.ofNat

instance : JsonForm (BitVec 128) where
  toJson n := .int n.toNat
  ofJson? document := (document.word? 128).map (BitVec.ofNat 128)

/-- Counts and positions are written in 64 bits. -/
instance : JsonForm Nat where
  toJson n := .int n
  ofJson? document := document.word? 64

instance {α : Type} [JsonForm α] : JsonForm (Option α) where
  toJson
    | none => .null
    | some x => toJson x
  ofJson?
    | .null => some none
    | document => (ofJson? document).map some

instance {α : Type} [JsonForm α] : JsonForm (List α) where
  toJson items := .list (items.map toJson)
  ofJson?
    | .list items => items.mapM ofJson?
    | _ => none

end BoardGame
