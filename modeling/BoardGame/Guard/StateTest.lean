import BoardGame.Game
import BoardGame.Guard.Tree
import BoardGame.Snapshot.Basic

/-!
Tests of a snapshot alone, which decide whether a phase applies.
-/

namespace BoardGame

structure CustomStateTest where
  name : String
  /-- The outcome that it always has, if it declares one. -/
  declared : Option Outcome := none
  /-- Whether its name is noted each time that it is asked. -/
  watched : Bool := false
  judge : Setting → Snapshot → Verdict

inductive StateTest where
  | always
  | never
  | abstain
  | activePlayerIs (player : ArtifactId)
  | hasStatus (artifact : ArtifactId) (aspect : Aspect)
  | custom (t : CustomStateTest)

namespace StateTest

def name : StateTest → String
  | always => "always"
  | never => "never"
  | abstain => "abstain"
  | activePlayerIs _ => "active-player-is"
  | hasStatus _ _ => "has-state"
  | custom t => t.name

def declared : StateTest → Option Outcome
  | always => some .valid
  | never => some .invalid
  | abstain => some .ignore
  | custom t => t.declared
  | _ => none

def judge (c : Setting) (s : Snapshot) : StateTest → Verdict
  | always => .valid
  | never => .fail "never"
  | abstain => .ignore
  | activePlayerIs player =>
    .check (s.activePlayer? = some player) (player ++ " is not the active player")
  | hasStatus artifact aspect =>
    .check (s.has artifact aspect) (artifact ++ " has no " ++ aspect.inspect ++ " state")
  | custom t => t.judge c s

/-- A watched test notes its name. -/
def ask (c : Setting) (s : Snapshot) (t : StateTest) : Noted String Verdict :=
  ⟨t.judge c s,
    match t with
    | custom { name, watched := true, .. } => [name]
    | _ => []⟩

end StateTest

abbrev StateGuard := Guard StateTest

namespace StateGuard

def always : StateGuard := .test .always

def settled? (g : StateGuard) : Option Outcome := Guard.settled? StateTest.declared g

/-- Whether asking can be skipped because the answer is always valid. -/
def isAlwaysValid (g : StateGuard) : Bool := settled? g = some .valid

def require (g h : StateGuard) : StateGuard := Guard.require StateTest.declared g h

def ask (c : Setting) (s : Snapshot) (g : StateGuard) : Noted String Verdict :=
  Guard.run (StateTest.ask c s) g

def inspect (g : StateGuard) : String := Guard.inspect StateTest.name g

end StateGuard

end BoardGame
