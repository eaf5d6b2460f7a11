import BoardGame.Guard.StateTest
import BoardGame.Rule.Basic

/-!
Phases of play: a tree whose leaves pair a guard on the snapshot with a rule. The order in which leaves
are declared is their order of precedence.
-/

namespace BoardGame

structure LeafPhase where
  id : PhaseId
  ordinal : Nat
  guard : StateGuard
  rule : Rule

inductive Phase where
  | group (id : PhaseId) (children : List Phase)
  | leaf (p : LeafPhase)

namespace LeafPhase

def ask (p : LeafPhase) (c : Setting) (s : Snapshot) : Noted String Verdict :=
  StateGuard.ask c s p.guard

end LeafPhase

namespace Phase

def id : Phase → PhaseId
  | group id _ => id
  | leaf p => p.id

mutual

/-- The leaves, depth first. -/
def leaves : Phase → List LeafPhase
  | leaf p => [p]
  | group _ children => leavesOf children

def leavesOf : List Phase → List LeafPhase
  | [] => []
  | p :: rest => leaves p ++ leavesOf rest

end

mutual

/-- The names of all phases, each group before its children. -/
def ids : Phase → List PhaseId
  | leaf p => [p.id]
  | group id children => id :: idsOf children

def idsOf : List Phase → List PhaseId
  | [] => []
  | p :: rest => ids p ++ idsOf rest

end

mutual

/-- The first leaf that applies, depth first; leaves after it are not asked. -/
def activeLeaf? (c : Setting) (s : Snapshot) : Phase → Noted String (Option LeafPhase)
  | leaf p => do
    let v ← p.ask c s
    pure (if v.isValid then some p else none)
  | group _ children => activeLeafOf? c s children

def activeLeafOf? (c : Setting) (s : Snapshot) : List Phase → Noted String (Option LeafPhase)
  | [] => pure none
  | p :: rest => do
    match ← activeLeaf? c s p with
    | some found => pure (some found)
    | none => activeLeafOf? c s rest

end

def inspectId (id : PhaseId) : String := Inspect.tuple "PhaseId" [Text.quoted id]

mutual

def inspect : Phase → String
  | leaf p =>
    Inspect.tuple "Leaf" [Inspect.record "LeafPhase"
      [("id", inspectId p.id), ("ordinal", toString p.ordinal),
        ("condition", StateGuard.inspect p.guard), ("rule", p.rule.inspect)]]
  | group id children =>
    Inspect.record "Group" [("id", inspectId id), ("children", Inspect.list (inspects children))]

def inspects : List Phase → List String
  | [] => []
  | p :: rest => inspect p :: inspects rest

end

end Phase

end BoardGame
