import BoardGame.Binary.Codec
import BoardGame.Json

/-!
Three-valued answers. A check may have no opinion (`ignore`), accept (`valid`) or reject (`invalid`);
having no opinion is never a rejection. A verdict adds a reason for diagnostics. Three folds combine
verdicts: `all`, `any` and `none`.
-/

namespace BoardGame

inductive Outcome where
  | ignore
  | valid
  | invalid
  deriving DecidableEq, Repr, Inhabited

namespace Outcome

def name : Outcome → String
  | ignore => "Ignore"
  | valid => "Valid"
  | invalid => "Invalid"

def table : List (String × Outcome) :=
  [("Ignore", ignore), ("Valid", valid), ("Invalid", invalid)]

def position : Outcome → Nat
  | ignore => 0
  | valid => 1
  | invalid => 2

end Outcome

instance : JsonForm Outcome := ⟨fun o => .text o.name, Json.ofTable? Outcome.table⟩

instance : Binary Outcome :=
  ⟨fun o => Binary.encodeCase o.position, Binary.decodeTable (Outcome.table.map Prod.snd)⟩

structure Verdict where
  outcome : Outcome
  reason : Option String := none
  deriving DecidableEq, Repr, Inhabited

namespace Verdict

def ofOutcome (o : Outcome) : Verdict := { outcome := o }

def valid : Verdict := ofOutcome .valid
def ignore : Verdict := ofOutcome .ignore

def ignoring (reason : String) : Verdict := ⟨.ignore, some reason⟩
def fail (reason : String) : Verdict := ⟨.invalid, some reason⟩

/-- Valid if the test holds, else invalid for the given reason. -/
def check (ok : Bool) (reason : String) : Verdict := if ok then valid else fail reason

def isValid (v : Verdict) : Bool := v.outcome = .valid
def isInvalid (v : Verdict) : Bool := v.outcome = .invalid
def isIgnore (v : Verdict) : Bool := v.outcome = .ignore

/-- Verdicts agree when their outcomes do; reasons are diagnostics. -/
def agrees (v w : Verdict) : Bool := v.outcome = w.outcome

def text (v : Verdict) : String :=
  match v.reason with
  | some reason => v.outcome.name ++ ": " ++ reason
  | none => v.outcome.name

/-- The first of two verdicts that is there. -/
def keepFirst (kept : Option Verdict) (v : Verdict) : Option Verdict := some (kept.getD v)

/-- Invalid as soon as one verdict is, with that one; else the first that ignores; else valid. -/
def allFrom (kept : Option Verdict) : List Verdict → Verdict
  | [] => kept.getD valid
  | v :: rest =>
    match v.outcome with
    | .invalid => v
    | .ignore => allFrom (keepFirst kept v) rest
    | .valid => allFrom kept rest

def all : List Verdict → Verdict := allFrom none

/-- Valid as soon as one verdict is, with that one; else the first that is invalid; else the first
that ignores; without verdicts, no opinion. -/
def anyFrom (rejected ignored : Option Verdict) : List Verdict → Verdict
  | [] => (rejected <|> ignored).getD ignore
  | v :: rest =>
    match v.outcome with
    | .valid => v
    | .invalid => anyFrom (keepFirst rejected v) ignored rest
    | .ignore => anyFrom rejected (keepFirst ignored v) rest

def any : List Verdict → Verdict := anyFrom none none

def negated : Verdict := fail "a negated condition was valid"

/-- Valid unless some verdict is. -/
def none : List Verdict → Verdict
  | [] => valid
  | v :: rest => if v.isValid then negated else none rest

end Verdict

instance : JsonForm Verdict where
  toJson v := .object [("outcome", toJson v.outcome), ("reason", toJson v.reason)]
  ofJson? document := do
    match ← document.fields? ["outcome", "reason"] with
    | [outcome, reason] => return ⟨← Json.required? outcome, ← Json.defaulted? Option.none reason⟩
    | _ => Option.none

instance : Binary Verdict where
  encode v := encode v.outcome ++ encode v.reason
  decode := return ⟨← Binary.decode, ← Binary.decode⟩

end BoardGame
