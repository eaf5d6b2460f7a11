import BoardGame.Engine.Basic
import BoardGame.Engine.Notice

/-!
Evaluating an event. The leaves that may concern it are considered in order of precedence, or, without
an agenda, only the first leaf that applies. If no rule is valid the event is ignored, unless some rule
rejected it: then it is refused with the first rejection. Otherwise the strategy selects among the valid
rules, and these are carried out in the order selected, each on the snapshot that the one before left.
-/

namespace BoardGame

inductive Evaluation where
  | ignored
  | applied (snapshot : Snapshot) (decision : Decision)

/-- What has been found so far: the valid rules in order, and the first rejection. -/
structure Scan where
  candidates : List Candidate := []
  rejection : Option (LeafPhase × Verdict) := none

def Candidate.ofLeaf (p : LeafPhase) : Candidate := ⟨p.rule.id, p.id, p.rule.priority, p.ordinal⟩

namespace Scan

def record (scan : Scan) (p : LeafPhase) (v : Verdict) : Scan :=
  match v.outcome with
  | .valid => { scan with candidates := scan.candidates ++ [Candidate.ofLeaf p] }
  | .invalid => { scan with rejection := some (scan.rejection.getD (p, v)) }
  | .ignore => scan

end Scan

namespace Engine

variable (e : Engine)

def consider (s : Snapshot) (event : Event) (scan : Scan) (p : LeafPhase) : Noted Note Scan := do
  let v ← (p.rule.check e.setting s event).asking
  Noted.note (.notice (.evaluated p.id p.rule.id event v))
  pure (scan.record p v)

/-- Considers an entry of the agenda unless its phase does not apply. -/
def visit (s : Snapshot) (event : Event) (scan : Scan) (entry : AgendaEntry) :
    Noted Note Scan := do
  if entry.alwaysActive then e.consider s event scan entry.phase
  else
    let v ← (entry.phase.ask e.setting s).asking
    if v.isValid then e.consider s event scan entry.phase
    else
      Noted.note (.notice (.inactive entry.phase.id v))
      pure scan

def scan (s : Snapshot) (event : Event) : Noted Note Scan :=
  match e.agenda with
  | some agenda => (agenda.candidates event.type).foldlM (e.visit s event) {}
  | none => do
    match ← (e.phases.activeLeaf? e.setting s).asking with
    | some p => e.consider s event {} p
    | none => pure {}

def perform (event : Event) (s : Snapshot) (c : Candidate) : Noted Note Snapshot :=
  match e.leaves[c.position]? with
  | some p => do
    let s ← (p.rule.apply e.setting event s).asking
    Noted.note (.notice (.applied event c))
    pure s
  | none => pure s

def evaluate (s : Snapshot) (event : Event) : Noted Note (Except Failure Evaluation) := do
  let scan ← e.scan s event
  if scan.candidates.isEmpty then
    match scan.rejection with
    | none =>
      Noted.note (.notice (.ignored event))
      pure (.ok .ignored)
    | some (p, verdict) =>
      let r : Rejection := { event, verdict, phase := p.id, rule := p.rule.id, snapshot := s }
      Noted.note (.notice (.rejected r))
      pure (.error (.rejected r))
  else
    match e.config.strategy.select scan.candidates with
    | .error candidates =>
      let rules := candidates.map Candidate.rule
      let phases := candidates.map Candidate.phase
      pure (.error (.conflict { event, rules, phases }))
    | .ok decision =>
      Noted.note (.notice (.decided event decision))
      let next ← decision.selected.foldlM (e.perform event) s
      pure (.ok (.applied next decision))

end Engine

end BoardGame
