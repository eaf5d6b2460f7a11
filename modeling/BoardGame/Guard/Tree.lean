import BoardGame.Noted
import BoardGame.Text.Inspect
import BoardGame.Verdict

/-!
Guards: closed trees of tests under `all`, `any` and `none`. Running a guard asks its tests from left to
right and stops as soon as the verdict is certain, so its notes come from the tests that were asked and
from no others. A guard is settled when every test in it always gives one outcome.
-/

namespace BoardGame

inductive Guard (α : Type) where
  | test (a : α)
  | all (children : List (Guard α))
  | any (children : List (Guard α))
  | none (children : List (Guard α))

abbrev Asked (ν : Type) := Unit → Noted ν Verdict

namespace Asked

variable {ν : Type}

def all (kept : Option Verdict) : List (Asked ν) → Noted ν Verdict
  | [] => pure (kept.getD .valid)
  | ask :: rest => do
    let v ← ask ()
    match v.outcome with
    | .invalid => pure v
    | .ignore => all (Verdict.keepFirst kept v) rest
    | .valid => all kept rest

def any (rejected ignored : Option Verdict) : List (Asked ν) → Noted ν Verdict
  | [] => pure ((rejected <|> ignored).getD .ignore)
  | ask :: rest => do
    let v ← ask ()
    match v.outcome with
    | .valid => pure v
    | .invalid => any (Verdict.keepFirst rejected v) ignored rest
    | .ignore => any rejected (Verdict.keepFirst ignored v) rest

/-- Asks until an answer is valid, which makes the whole invalid. -/
def none : List (Asked ν) → Noted ν Verdict
  | [] => pure .valid
  | ask :: rest => do
    let v ← ask ()
    if v.isValid then pure .negated else none rest

end Asked

namespace Guard

variable {α ν : Type}

/-- Both guards; a conjunction on the left is extended. -/
def and (g h : Guard α) : Guard α :=
  match g with
  | .all children => .all (children ++ [h])
  | g => .all [g, h]

/-- Either guard; a disjunction on the left is extended. -/
def or (g h : Guard α) : Guard α :=
  match g with
  | .any children => .any (children ++ [h])
  | g => .any [g, h]

def negate (g : Guard α) : Guard α := .none [g]

mutual

def run (judge : α → Noted ν Verdict) : Guard α → Noted ν Verdict
  | .test a => judge a
  | .all children => Asked.all Option.none (asks judge children)
  | .any children => Asked.any Option.none Option.none (asks judge children)
  | .none children => Asked.none (asks judge children)

def asks (judge : α → Noted ν Verdict) : List (Guard α) → List (Asked ν)
  | [] => []
  | g :: rest => (fun _ => run judge g) :: asks judge rest

end

mutual

def testCount : Guard α → Nat
  | .test _ => 1
  | .all children | .any children | .none children => testCounts children

def testCounts : List (Guard α) → Nat
  | [] => 0
  | g :: rest => testCount g + testCounts rest

end

mutual

/-- The outcome that a guard always has, when each of its tests declares one. -/
def settled? (declared : α → Option Outcome) : Guard α → Option Outcome
  | .test a => declared a
  | .all children => (settledEach? declared children).map fun vs => (Verdict.all vs).outcome
  | .any children => (settledEach? declared children).map fun vs => (Verdict.any vs).outcome
  | .none children => (settledEach? declared children).map fun vs => (Verdict.none vs).outcome

def settledEach? (declared : α → Option Outcome) : List (Guard α) → Option (List Verdict)
  | [] => some []
  | g :: rest => do
    let o ← settled? declared g
    let vs ← settledEach? declared rest
    return Verdict.ofOutcome o :: vs

end

/-- A guard with one more requirement. What is always valid is replaced rather than extended. -/
def require (declared : α → Option Outcome) (g h : Guard α) : Guard α :=
  if g.settled? declared = some .valid then h else g.and h

mutual

def inspect (name : α → String) : Guard α → String
  | .test a => name a
  | .all children => Inspect.tuple "All" (inspects name children)
  | .any children => Inspect.tuple "Any" (inspects name children)
  | .none children => Inspect.tuple "None" (inspects name children)

def inspects (name : α → String) : List (Guard α) → List String
  | [] => []
  | g :: rest => inspect name g :: inspects name rest

end

end Guard

end BoardGame
