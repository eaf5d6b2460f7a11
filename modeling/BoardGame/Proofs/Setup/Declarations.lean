import BoardGame.Setup.Blueprint
import Mathlib.Data.List.Induction

/-!
What declarations add up to. A blueprint keeps whatever was said of tiles, pieces and the like, in order,
and the last thing that was said of the first player, the configuration and the observer.
-/

namespace BoardGame

namespace Declaration

def tile? : Declaration → Option ArtifactId
  | .tile id => some id
  | _ => none

def direction? : Declaration → Option DirectionId
  | .direction id => some id
  | _ => none

def relation? : Declaration → Option Relation
  | .relation r => some r
  | _ => none

def player? : Declaration → Option ArtifactId
  | .player id => some id
  | _ => none

def dice? : Declaration → Option (ArtifactId × UInt32)
  | .dice id faces => some (id, faces)
  | _ => none

def piece? : Declaration → Option PieceDecl
  | .piece p => some p
  | _ => none

def custom? : Declaration → Option (ArtifactId × String)
  | .custom id kind => some (id, kind)
  | _ => none

def status? : Declaration → Option Status
  | .status s => some s
  | _ => none

def activePlayer? : Declaration → Option ArtifactId
  | .activePlayer id => some id
  | _ => none

def extra? : Declaration → Option (String × Value)
  | .extra key value => some (key, value)
  | _ => none

def phase? : Declaration → Option PhaseDecl
  | .phase p => some p
  | _ => none

def config? : Declaration → Option Config
  | .config c => some c
  | _ => none

def observer? : Declaration → Option Observer
  | .observer o => some o
  | _ => none

end Declaration

namespace Blueprint

def ofDeclarations (l : List Declaration) : Blueprint where
  tiles := l.filterMap Declaration.tile?
  directions := l.filterMap Declaration.direction?
  relations := l.filterMap Declaration.relation?
  players := l.filterMap Declaration.player?
  dice := l.filterMap Declaration.dice?
  pieces := l.filterMap Declaration.piece?
  customs := l.filterMap Declaration.custom?
  statuses := l.filterMap Declaration.status?
  activePlayer := (l.filterMap Declaration.activePlayer?).getLast?
  extras := l.filterMap Declaration.extra?
  phases := l.filterMap Declaration.phase?
  config := (l.filterMap Declaration.config?).getLast?.getD {}
  observer := (l.filterMap Declaration.observer?).getLast?

theorem ofDeclarations_concat (l : List Declaration) (x : Declaration) :
    ofDeclarations (l ++ [x]) = (ofDeclarations l).add x := by
  simp only [ofDeclarations, List.filterMap_append]
  cases x <;> simp [add, Declaration.tile?, Declaration.direction?, Declaration.relation?,
    Declaration.player?, Declaration.dice?, Declaration.piece?, Declaration.custom?,
    Declaration.status?, Declaration.activePlayer?, Declaration.extra?, Declaration.phase?,
    Declaration.config?, Declaration.observer?]

theorem foldl_add_eq_ofDeclarations (l : List Declaration) : l.foldl add {} = ofDeclarations l := by
  induction l using List.reverseRecOn with
  | nil => rfl
  | append_singleton l x ih =>
    rw [List.foldl_append, ih, List.foldl_cons, List.foldl_nil, ofDeclarations_concat]

end Blueprint

end BoardGame
