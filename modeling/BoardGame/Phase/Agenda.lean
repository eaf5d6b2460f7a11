import BoardGame.Phase.Basic

/-!
Agendas: the leaves of a phase tree laid out once in order of precedence. With an index, entries whose
rule is made for one type of event are looked up by that type and merged with the others by position, so
an event meets the entries that may concern it in the order in which a full scan would.
-/

namespace BoardGame

structure AgendaEntry where
  index : Nat
  phase : LeafPhase
  /-- Whether the phase applies to every snapshot. -/
  alwaysActive : Bool
  type : Option EventType

structure Agenda where
  entries : List AgendaEntry := []
  /-- Positions of the entries made for each indexed type. -/
  byType : List (EventType × List Nat) := []
  /-- Positions of the entries that every event has to consider. -/
  untyped : List Nat := []

namespace Agenda

def addToType (type : EventType) (index : Nat) :
    List (EventType × List Nat) → List (EventType × List Nat)
  | [] => [(type, [index])]
  | (t, indexes) :: rest =>
    if t = type then (t, indexes ++ [index]) :: rest
    else (t, indexes) :: addToType type index rest

def entryOf (p : LeafPhase) (index : Nat) : AgendaEntry where
  index
  phase := p
  alwaysActive := StateGuard.isAlwaysValid p.guard
  type := p.rule.type

def add (indexed : Bool) (a : Agenda) (p : LeafPhase) : Agenda :=
  let index := a.entries.length
  let entries := a.entries ++ [entryOf p index]
  match p.rule.type, indexed with
  | some type, true => { a with entries, byType := addToType type index a.byType }
  | _, _ => { a with entries, untyped := a.untyped ++ [index] }

/-- The leaves of a phase tree in order, with or without an index of their types. -/
def ofPhase (root : Phase) (indexed : Bool) : Agenda := root.leaves.foldl (add indexed) {}

def length (a : Agenda) : Nat := a.entries.length

def indexedTypes (a : Agenda) : Nat := a.byType.length

end Agenda

/-- The positions that are still to be visited, of the entries made for an event's type and of those
that every event considers. -/
structure AgendaCursor where
  typed : List Nat
  untyped : List Nat
  deriving DecidableEq, Repr

namespace AgendaCursor

/-- The smaller of the two front positions, and the cursor behind it. -/
def next? : AgendaCursor → Option (Nat × AgendaCursor)
  | ⟨[], []⟩ => none
  | ⟨t :: typed, []⟩ => some (t, ⟨typed, []⟩)
  | ⟨[], u :: untyped⟩ => some (u, ⟨[], untyped⟩)
  | ⟨t :: typed, u :: untyped⟩ =>
    if t < u then some (t, ⟨typed, u :: untyped⟩) else some (u, ⟨t :: typed, untyped⟩)

def remaining (q : AgendaCursor) : Nat := q.typed.length + q.untyped.length

def drain : Nat → AgendaCursor → List Nat
  | 0, _ => []
  | n + 1, q =>
    match q.next? with
    | none => []
    | some (i, q) => i :: drain n q

def positions (q : AgendaCursor) : List Nat := drain q.remaining q

end AgendaCursor

namespace Agenda

def cursor (a : Agenda) (type : EventType) : AgendaCursor :=
  ⟨(Entries.lookup type a.byType).getD [], a.untyped⟩

/-- The entries that may concern an event of a type, in order of precedence. -/
def candidates (a : Agenda) (type : EventType) : List AgendaEntry :=
  (a.cursor type).positions.filterMap fun i => a.entries[i]?

end Agenda

end BoardGame
