import BoardGame.Event
import BoardGame.Noted
import BoardGame.Rule.Decision
import BoardGame.Snapshot.Basic
import BoardGame.Verdict

/-!
What an evaluation reports: why an event was refused, and the notices that observers receive on the way.
-/

namespace BoardGame

/-- A rule rejected the event and no other rule accepted it. -/
structure Rejection where
  event : Event
  verdict : Verdict
  phase : PhaseId
  rule : RuleId
  /-- The snapshot that the event met, unchanged. -/
  snapshot : Snapshot

/-- Several rules accepted the event where only one may. -/
structure Conflict where
  event : Event
  rules : List RuleId
  phases : List PhaseId

inductive Failure where
  | rejected (r : Rejection)
  | conflict (c : Conflict)

def Rejection.message (r : Rejection) : String :=
  r.event.name ++ " rejected by rule `" ++ r.rule ++ "` in phase `" ++ r.phase ++ "`: " ++
    r.verdict.text

def Conflict.message (c : Conflict) : String :=
  c.event.name ++ " matched " ++ toString c.rules.length ++ " rules under exclusive resolution: " ++
    Inspect.commas c.rules

def Failure.message : Failure → String
  | .rejected r => r.message
  | .conflict c => c.message

def Failure.event : Failure → Event
  | .rejected r => r.event
  | .conflict c => c.event

inductive Notice where
  /-- A leaf was passed over because its phase does not apply. -/
  | inactive (phase : PhaseId) (v : Verdict)
  | evaluated (phase : PhaseId) (rule : RuleId) (event : Event) (v : Verdict)
  /-- No rule had an opinion. -/
  | ignored (event : Event)
  | rejected (r : Rejection)
  | decided (event : Event) (d : Decision)
  | applied (event : Event) (c : Candidate)

namespace Notice

def line : Notice → String
  | inactive phase v => "inactive " ++ phase ++ " " ++ v.text
  | evaluated phase rule event v =>
    "evaluated " ++ phase ++ "/" ++ rule ++ " " ++ event.name ++ " " ++ v.text
  | ignored event => "ignored " ++ event.name
  | rejected r => "rejected " ++ r.message
  | decided event d => "decision " ++ event.name ++ " " ++ d.text
  | applied event c => "applied " ++ event.name ++ " " ++ c.text

end Notice

inductive Conclusion where
  | ignored
  | applied (d : Decision)
  | failed (f : Failure)

/-- What is noted while an event is handled: a watched test that was asked, a notice to the observer,
or how it ended. -/
inductive Note where
  | asked (test : String)
  | notice (n : Notice)
  | concluded (c : Conclusion)

namespace Note

def asked? : Note → Option String
  | asked test => some test
  | _ => none

def notice? : Note → Option Notice
  | notice n => some n
  | _ => none

end Note

/-- The result of a part that only asks tests, within an evaluation. -/
def Noted.asking {α : Type} (x : Noted String α) : Noted Note α := x.mapNotes .asked

end BoardGame
