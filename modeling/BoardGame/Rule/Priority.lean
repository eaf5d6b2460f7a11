import BoardGame.Binary.Codec
import BoardGame.Json

/-! Six levels of priority among rules. -/

namespace BoardGame

inductive Priority where
  | lowest
  | low
  | normal
  | high
  | highest
  | override
  deriving DecidableEq, Repr

namespace Priority

instance : Inhabited Priority := ⟨normal⟩

def level : Priority → Nat
  | lowest => 0
  | low => 1
  | normal => 2
  | high => 3
  | highest => 4
  | override => 5

def table : List (String × Priority) :=
  [("Lowest", lowest), ("Low", low), ("Normal", normal), ("High", high), ("Highest", highest),
    ("Override", override)]

def name : Priority → String
  | lowest => "Lowest"
  | low => "Low"
  | normal => "Normal"
  | high => "High"
  | highest => "Highest"
  | override => "Override"

def descending : List Priority := [override, highest, high, normal, low, lowest]

end Priority

instance : JsonForm Priority := ⟨fun p => .text p.name, Json.ofTable? Priority.table⟩

instance : Binary Priority :=
  ⟨fun p => Binary.encodeCase p.level, Binary.decodeTable (Priority.table.map Prod.snd)⟩

end BoardGame
