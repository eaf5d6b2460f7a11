import BoardGame.Snapshot.Basic

/-! The changes that snapshots allow, as data. -/

namespace BoardGame

inductive Edit where
  | put (statuses : List Status)
  | remove (artifact : ArtifactId) (aspect : Aspect)
  | extra (key : String) (value : Value)
  | rolls (state : RollState)

def Snapshot.edit (s : Snapshot) : Edit → Snapshot
  | .put statuses => s.putAll statuses
  | .remove artifact aspect => s.remove artifact aspect
  | .extra key value => s.setExtra key value
  | .rolls state => s.setRolls state

def Snapshot.editAll (s : Snapshot) (edits : List Edit) : Snapshot := edits.foldl Snapshot.edit s

end BoardGame
