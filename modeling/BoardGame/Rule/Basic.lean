import BoardGame.Effect.Basic
import BoardGame.Guard.EventTest
import BoardGame.Rule.Priority

/-!
Rules: a guard with effects, or with child rules. A rule over `all` of its children is valid when each of
them is and applies them in order, each to the snapshot that the one before left. A rule over `any` of its
children is valid when one of them is and applies the first that is. A rule may be made for one type of
event, and then has no opinion on others.
-/

namespace BoardGame

structure RuleHead where
  id : RuleId
  priority : Priority := .normal
  type : Option EventType := none
  guard : EventGuard := EventGuard.always

inductive Rule where
  | simple (head : RuleHead) (effects : List Effect)
  | all (head : RuleHead) (children : List Rule)
  | any (head : RuleHead) (children : List Rule)

inductive RuleError where
  | effectOnComposite (rule : RuleId)
  deriving DecidableEq, Repr

def RuleError.message : RuleError → String
  | effectOnComposite rule => "rule `" ++ rule ++ "` is a composite; add mutators to its children"

namespace Rule

def head : Rule → RuleHead
  | simple head _ | all head _ | any head _ => head

def mapHead (f : RuleHead → RuleHead) : Rule → Rule
  | simple head effects => simple (f head) effects
  | all head children => all (f head) children
  | any head children => any (f head) children

def id (r : Rule) : RuleId := r.head.id
def priority (r : Rule) : Priority := r.head.priority
def type (r : Rule) : Option EventType := r.head.type
def guard (r : Rule) : EventGuard := r.head.guard

def children : Rule → List Rule
  | simple _ _ => []
  | all _ children | any _ children => children

/-- The one type of event that all of some rules are made for. -/
def commonType : List Rule → Option EventType
  | [] => none
  | r :: rest => do
    let type ← r.type
    if rest.all fun r => r.type = some type then some type else none

/-- A rule for every event. -/
def new (id : RuleId) : Rule := simple { id } []

def on (type : EventType) (id : RuleId) : Rule := simple { id, type := some type } []

def allOf (id : RuleId) (children : List Rule) : Rule :=
  all { id, type := commonType children } children

def anyOf (id : RuleId) (children : List Rule) : Rule :=
  any { id, type := commonType children } children

def require (r : Rule) (g : EventGuard) : Rule :=
  r.mapHead fun head => { head with guard := EventGuard.require head.guard g }

/-- The rule with one more effect; a rule over child rules has none of its own. -/
def perform? (r : Rule) (f : Effect) : Except RuleError Rule :=
  match r with
  | simple head effects => .ok (simple head (effects ++ [f]))
  | all head _ | any head _ => .error (.effectOnComposite head.id)

def withPriority (r : Rule) (priority : Priority) : Rule :=
  r.mapHead fun head => { head with priority }

mutual

/-- The rule and every rule within it, each before its children. -/
def withDescendants : Rule → List Rule
  | simple head effects => [simple head effects]
  | all head children => all head children :: descendants children
  | any head children => any head children :: descendants children

def descendants : List Rule → List Rule
  | [] => []
  | r :: rest => withDescendants r ++ descendants rest

end

end Rule

namespace RuleHead

def admits (h : RuleHead) (e : Event) : Bool :=
  match h.type with
  | some type => e.type = type
  | none => true

/-- The verdict of a rule with this head: that of its guard, joined by that of its children if the
guard does not reject. -/
def check (h : RuleHead) (c : Setting) (s : Snapshot) (e : Event) (body : Option (Asked String)) :
    Noted String Verdict :=
  if h.admits e then do
    let guard ← EventGuard.ask c s e h.guard
    if guard.isInvalid then pure guard
    else
      match body with
      | none => pure guard
      | some ask =>
        let v ← ask ()
        pure (Verdict.all [guard, v])
  else pure .ignore

end RuleHead

namespace Rule

mutual

def check (c : Setting) (s : Snapshot) (e : Event) : Rule → Noted String Verdict
  | simple head _ => head.check c s e none
  | all head children => head.check c s e (some fun _ => Asked.all none (checks c s e children))
  | any head children =>
    head.check c s e (some fun _ => Asked.any none none (checks c s e children))

def checks (c : Setting) (s : Snapshot) (e : Event) : List Rule → List (Asked String)
  | [] => []
  | r :: rest => (fun _ => check c s e r) :: checks c s e rest

end

mutual

/-- Carries the rule out, whether or not it is valid. -/
def apply (c : Setting) (e : Event) : Rule → Snapshot → Noted String Snapshot
  | simple _ effects, s => pure (Effect.runAll c e effects s)
  | all _ children, s => applyAll c e children s
  | any _ children, s => applyFirst c e children s

def applyAll (c : Setting) (e : Event) : List Rule → Snapshot → Noted String Snapshot
  | [], s => pure s
  | r :: rest, s => do
    let s ← apply c e r s
    applyAll c e rest s

/-- Carries out the first valid rule; without one the snapshot stays as it is. -/
def applyFirst (c : Setting) (e : Event) : List Rule → Snapshot → Noted String Snapshot
  | [], s => pure s
  | r :: rest, s => do
    let v ← check c s e r
    if v.isValid then apply c e r s else applyFirst c e rest s

end

def inspectId (id : RuleId) : String := Inspect.tuple "RuleId" [Text.quoted id]

def inspectWith (h : RuleHead) (label : String) (items : List String) : String :=
  Inspect.record "EventRule"
    [("id", inspectId h.id), ("priority", h.priority.name),
      ("event_type", Inspect.option (h.type.map fun t => Text.quoted t.name)),
      ("condition", EventGuard.inspect h.guard), (label, Inspect.list items)]

mutual

def inspect : Rule → String
  | simple head effects =>
    inspectWith head "mutators" (effects.map fun f => Text.quoted f.name)
  | all head children => inspectWith head "all" (inspects children)
  | any head children => inspectWith head "any" (inspects children)

def inspects : List Rule → List String
  | [] => []
  | r :: rest => inspect r :: inspects rest

end

end Rule

end BoardGame
