import BoardGame.Artifact
import BoardGame.Rule.Priority

/-!
Choosing among rules that are valid for one event. A lone candidate is taken without asking the strategy.
Otherwise the first, the last or the earliest of highest priority is taken; or several candidates are a
conflict; or all are taken, those of higher priority first and in their given order within a priority.
-/

namespace BoardGame

structure Candidate where
  rule : RuleId
  phase : PhaseId
  priority : Priority
  /-- The position of its phase among all leaves. -/
  position : Nat
  deriving DecidableEq, Repr

def Candidate.text (c : Candidate) : String :=
  c.phase ++ "/" ++ c.rule ++ " (" ++ c.priority.name ++ ")"

inductive Strategy where
  | firstWins
  | lastWins
  | highestPriority
  | exclusive
  | applyAll
  deriving DecidableEq, Repr

namespace Strategy

instance : Inhabited Strategy := ⟨firstWins⟩

def table : List (String × Strategy) :=
  [("FirstWins", firstWins), ("LastWins", lastWins), ("HighestPriority", highestPriority),
    ("Exclusive", exclusive), ("ApplyAll", applyAll)]

def name : Strategy → String
  | firstWins => "FirstWins"
  | lastWins => "LastWins"
  | highestPriority => "HighestPriority"
  | exclusive => "Exclusive"
  | applyAll => "ApplyAll"

def position : Strategy → Nat
  | firstWins => 0
  | lastWins => 1
  | highestPriority => 2
  | exclusive => 3
  | applyAll => 4

def appliesMany (s : Strategy) : Bool := s = applyAll

end Strategy

structure Decision where
  strategy : Strategy
  /-- In the order of application. -/
  selected : List Candidate
  /-- Valid candidates that are not applied. -/
  rejected : List Candidate
  reason : String
  deriving DecidableEq, Repr

namespace Decision

def winner? (d : Decision) : Option Candidate := d.selected.head?

def rules (d : Decision) : List RuleId := d.selected.map Candidate.rule

def text (d : Decision) : String :=
  d.strategy.name ++ ": " ++ Inspect.commas (d.selected.map Candidate.text) ++ " (" ++ d.reason ++
    "; " ++ toString d.rejected.length ++ " rejected)"

end Decision

namespace Strategy

/-- The position of the earliest candidate of highest priority, given the best of those before. -/
def bestFrom (best : Nat) (bestLevel : Nat) : Nat → List Candidate → Nat
  | _, [] => best
  | i, c :: rest =>
    if bestLevel < c.priority.level then bestFrom i c.priority.level (i + 1) rest
    else bestFrom best bestLevel (i + 1) rest

def best : List Candidate → Nat
  | [] => 0
  | c :: rest => bestFrom 0 c.priority.level 1 rest

/-- Higher priorities first, the given order within a priority. -/
def byPriority (candidates : List Candidate) : List Candidate :=
  Priority.descending.flatMap fun p => candidates.filter fun c => c.priority = p

/-- One candidate is selected, the others are rejected. -/
def pick (s : Strategy) (candidates : List Candidate) (i : Nat) (reason : String) : Decision :=
  match candidates[i]? with
  | some c => ⟨s, [c], candidates.eraseIdx i, reason⟩
  | none => ⟨s, [], [], "no candidates"⟩

/-- Selects among candidates given in order of precedence. Several candidates where only one may be
valid are returned as the conflict that they are. -/
def select (s : Strategy) (candidates : List Candidate) : Except (List Candidate) Decision :=
  match candidates with
  | [c] => .ok ⟨s, [c], [], "single candidate"⟩
  | candidates =>
    match s with
    | firstWins => .ok (s.pick candidates 0 "first in plan order")
    | lastWins => .ok (s.pick candidates (candidates.length - 1) "last in plan order")
    | highestPriority =>
      .ok (s.pick candidates (best candidates) "highest priority, earliest on ties")
    | exclusive =>
      if candidates.isEmpty then .ok (s.pick candidates 0 "exclusive") else .error candidates
    | applyAll => .ok ⟨s, byPriority candidates, [], "apply all by priority"⟩

end Strategy

instance : JsonForm Strategy := ⟨fun s => .text s.name, Json.ofTable? Strategy.table⟩

instance : Binary Strategy :=
  ⟨fun s => Binary.encodeCase s.position, Binary.decodeTable (Strategy.table.map Prod.snd)⟩

instance : JsonForm Candidate where
  toJson c :=
    .object [("rule", toJson c.rule), ("phase", toJson c.phase), ("priority", toJson c.priority),
      ("plan_index", toJson c.position)]
  ofJson? document := do
    match ← document.fields? ["rule", "phase", "priority", "plan_index"] with
    | [rule, phase, priority, position] =>
      return ⟨← Json.required? rule, ← Json.required? phase, ← Json.required? priority,
        ← Json.required? position⟩
    | _ => none

instance : Binary Candidate where
  encode c := encode c.rule ++ encode c.phase ++ encode c.priority ++ encode c.position
  decode := return ⟨← Binary.decode, ← Binary.decode, ← Binary.decode, ← Binary.decode⟩

instance : JsonForm Decision where
  toJson d :=
    .object [("strategy", toJson d.strategy), ("selected", toJson d.selected),
      ("rejected", toJson d.rejected), ("reason", toJson d.reason)]
  ofJson? document := do
    match ← document.fields? ["strategy", "selected", "rejected", "reason"] with
    | [strategy, selected, rejected, reason] =>
      return ⟨← Json.required? strategy, ← Json.required? selected, ← Json.required? rejected,
        ← Json.required? reason⟩
    | _ => none

instance : Binary Decision where
  encode d := encode d.strategy ++ encode d.selected ++ encode d.rejected ++ encode d.reason
  decode := return ⟨← Binary.decode, ← Binary.decode, ← Binary.decode, ← Binary.decode⟩

end BoardGame
