import BoardGame.Guard.EventTest
import BoardGame.Guard.StateTest

/-!
Ready-made tests beside the built-in ones: tests of extras, tests with a fixed answer, and tests that
note when they are asked.
-/

namespace BoardGame

/-- An answer that depends on the snapshot at most. -/
structure ReadyTest where
  name : String
  watched : Bool := false
  answer : Snapshot → Verdict

namespace ReadyTest

def fixed (name : String) (v : Verdict) : ReadyTest := { name, answer := fun _ => v }

def probe (name : String) (o : Outcome) : ReadyTest :=
  { name, watched := true, answer := fun _ => .ofOutcome o }

def flagOn (key : String) : ReadyTest where
  name := "flag"
  answer s := .check ((s.extra? key).bind Value.asFlag? = some true) (key ++ " is off")

/-- A number among the extras, zero if it is not there, is below a bound. -/
def below (key : String) (bound : Int64) : ReadyTest where
  name := "below"
  answer s :=
    let n := ((s.extra? key).bind Value.asInt?).getD 0
    .check (n < bound) (key ++ " is " ++ toString n ++ ", not below " ++ toString bound)

def onState (t : ReadyTest) : StateTest :=
  .custom { name := t.name, watched := t.watched, judge := fun _ s => t.answer s }

def onEvent (t : ReadyTest) : EventTest :=
  .custom { name := t.name, watched := t.watched, judge := fun _ s _ => t.answer s }

end ReadyTest

/-- Valid for the events of one type, no opinion on others. -/
def EventTest.isType (type : EventType) : EventTest :=
  .custom { name := "event-is", judge := fun _ _ e => if e.type = type then .valid else .ignore }

end BoardGame
