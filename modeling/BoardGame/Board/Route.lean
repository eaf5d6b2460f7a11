import BoardGame.Board.Graph

/-!
Routes over a board: non-empty chains of relations, each starting where the one before it ended.
-/

namespace BoardGame

/-- Each relation starts on the tile where the one before it ends. -/
def Connected : List Relation → Bool
  | r :: s :: rest => r.target = s.source && Connected (s :: rest)
  | _ => true

structure Route where
  first : Relation
  rest : List Relation
  connected : Connected (first :: rest) = true := by decide

namespace Route

theorem ext_relations {p q : Route} (h : p.first :: p.rest = q.first :: q.rest) : p = q := by
  cases p
  cases q
  simp at h
  obtain ⟨rfl, rfl⟩ := h
  rfl

instance : DecidableEq Route := fun p q =>
  decidable_of_iff (p.first :: p.rest = q.first :: q.rest)
    ⟨ext_relations, fun h => by rw [h]⟩

/-- The route of a chain, unless it is empty or broken. -/
def ofList? : List Relation → Option Route
  | [] => none
  | r :: rest => if h : Connected (r :: rest) = true then some ⟨r, rest, h⟩ else none

def relations (p : Route) : List Relation := p.first :: p.rest

theorem relations_of_ofList? {l : List Relation} {p : Route} (h : ofList? l = some p) :
    p.relations = l := by
  cases l with
  | nil => simp [ofList?] at h
  | cons r rest =>
    simp only [ofList?] at h
    split at h
    · cases h
      rfl
    · simp at h

@[simp] theorem ofList?_relations (p : Route) : ofList? p.relations = some p := by
  simp [ofList?, relations, p.connected]

def source (p : Route) : ArtifactId := p.first.source
def target (p : Route) : ArtifactId := (p.relations.getLast (List.cons_ne_nil _ _)).target

/-- Every tile on the route, both ends included. -/
def tiles (p : Route) : List ArtifactId := p.source :: p.relations.map Relation.target

/-- The tiles strictly between the ends. -/
def between (p : Route) : List ArtifactId := p.relations.dropLast.map Relation.target

def length (p : Route) : Nat := p.relations.length

/-- What the steps cost together, in the type of a single cost: a sum past its end wraps around. -/
def distance (p : Route) : UInt32 := p.relations.foldr (fun r rest => r.distance + rest) 0

def inspect (p : Route) : String :=
  Inspect.record "TilePath" [("relations", Inspect.list (p.relations.map Relation.inspect))]

end Route

end BoardGame
