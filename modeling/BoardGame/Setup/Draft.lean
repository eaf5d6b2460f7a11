import BoardGame.Engine.Journal
import BoardGame.Setup.Build

/-!
Drafts: a blueprint that is open for declarations until it is compiled for the first time. The result of
that first time, be it a session or an error, is kept and handed out ever after.
-/

namespace BoardGame

structure Draft where
  blueprint : Blueprint := {}
  result : Option (Except BuildError Session) := none

inductive DraftError where
  | frozen
  deriving DecidableEq, Repr

def DraftError.message : DraftError → String
  | frozen => "GameBuilder already compiled; definitions are frozen"

namespace Draft

def isCompiled (d : Draft) : Bool := d.result.isSome

def declare (d : Draft) (x : Declaration) : Except DraftError Draft :=
  if d.isCompiled then .error .frozen else .ok { d with blueprint := d.blueprint.add x }

/-- The result of compiling and the draft that remembers it; the first time is logged. -/
def compile (d : Draft) : Noted LogRecord (Except BuildError Session × Draft) :=
  match d.result with
  | some result => pure (result, d)
  | none =>
    let result := d.blueprint.build
    ⟨(result, { d with result := some result }), [.ofBuild result]⟩

end Draft

end BoardGame
