import BoardGame.Engine.Session
import BoardGame.Setup.BuildError

/-!
The log of an engine: records of what happened, each with a level, a message and named texts. Notices are
logged only for an observer that logs; how an event ended is logged always.
-/

namespace BoardGame

inductive LogLevel where
  | trace
  | debug
  | warn
  deriving DecidableEq, Repr

def LogLevel.name : LogLevel → String
  | trace => "TRACE"
  | debug => "DEBUG"
  | warn => "WARN"

structure LogRecord where
  level : LogLevel
  message : String
  fields : List (String × String)
  deriving DecidableEq, Repr

namespace LogRecord

def ofNotice : Notice → LogRecord
  | .inactive phase v =>
    ⟨.trace, "phase inactive", [("phase", phase), ("response", v.text)]⟩
  | .evaluated phase rule event v =>
    ⟨.trace, "rule evaluated",
      [("phase", phase), ("rule", rule), ("event", event.name), ("response", v.text)]⟩
  | .ignored event => ⟨.trace, "event ignored", [("event", event.name)]⟩
  | .rejected r => ⟨.trace, "event rejected", [("rejection", r.message)]⟩
  | .decided event d =>
    ⟨.trace, "decision made", [("event", event.name), ("decision", d.text)]⟩
  | .applied event c => ⟨.trace, "rule applied", [("event", event.name), ("rule", c.text)]⟩

def ofConclusion : Conclusion → LogRecord
  | .ignored => ⟨.debug, "event ignored", []⟩
  | .applied d => ⟨.debug, "event applied", [("decision", d.text)]⟩
  | .failed f => ⟨.debug, "event failed", [("error", f.message)]⟩

def ofBuild : Except BuildError Session → LogRecord
  | .ok p =>
    ⟨.debug, "game compiled",
      [("artifacts", toString p.engine.game.artifacts.size),
        ("relations", toString p.engine.game.board.relations.length),
        ("phases", toString p.engine.leaves.length),
        ("plan", toString p.engine.agenda.isSome),
        ("resolver", p.engine.accelerator?.getD "none")]⟩
  | .error e => ⟨.warn, "game failed to compile", [("error", e.message)]⟩

end LogRecord

namespace Observer

def log (o : Observer) (notes : List Note) : List LogRecord :=
  notes.filterMap fun
    | .asked _ => none
    | .notice n => if o = .logging then some (.ofNotice n) else none
    | .concluded c => some (.ofConclusion c)

def lines (o : Observer) (notes : List Note) : List String :=
  if o = .recording then (notes.filterMap Note.notice?).map Notice.line else []

end Observer

end BoardGame
