import BoardGame.Effect.Basic

/-! Ready-made effects beside the built-in ones; none of them looks at the event. -/

namespace BoardGame.Effect

def onSnapshot (name : String) (f : Snapshot → Snapshot) : Effect :=
  .custom { name, run := fun _ s _ => f s }

def idle (name : String) : Effect := onSnapshot name id

/-- Adds to the extra `counter`, wrapping around at 64 bits; what is not a number counts as zero. -/
def addToCounter (n : Int64) : Effect :=
  onSnapshot "counter" fun s =>
    s.setExtra "counter" (.int (((s.extra? "counter").bind Value.asInt?).getD 0 + n))

/-- Appends to the extra `trail`; what is not a list of texts counts as empty. -/
def leaveTrail (mark : String) : Effect :=
  onSnapshot "trail" fun s =>
    s.setExtra "trail" (.texts (((s.extra? "trail").bind Value.asTexts?).getD [] ++ [mark]))

def edits (edits : List Edit) : Effect := onSnapshot "modify" fun s => s.editAll edits

end BoardGame.Effect
