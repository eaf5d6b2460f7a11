import BoardGame.Rule.Decision

/-! How an engine evaluates events. -/

namespace BoardGame

structure Config where
  strategy : Strategy := .firstWins
  /-- Whether all leaves are considered, by an agenda, or only the first that applies. -/
  useAgenda : Bool := true
  /-- Whether the agenda is indexed by event type. -/
  indexTypes : Bool := true
  /-- Whether routes are first looked up in rays. -/
  useRays : Bool := true
  seed : UInt64 := 0
  deriving DecidableEq, Repr

namespace Config

def withStrategy (c : Config) (strategy : Strategy) : Config := { c with strategy }
def withoutAgenda (c : Config) : Config := { c with useAgenda := false }
def withoutTypeIndex (c : Config) : Config := { c with indexTypes := false }
def withoutRays (c : Config) : Config := { c with useRays := false }
def withSeed (c : Config) (seed : UInt64) : Config := { c with seed }

def inspect (c : Config) : String :=
  Inspect.record "EngineConfig"
    [("conflict_resolution", c.strategy.name), ("decision_plan", toString c.useAgenda),
      ("event_type_index", toString c.indexTypes), ("compiled_paths", toString c.useRays),
      ("seed", toString c.seed)]

end Config

/-- Every field may be left out and then has its default. -/
instance : JsonForm Config where
  toJson c :=
    .object [("conflict_resolution", toJson c.strategy), ("decision_plan", toJson c.useAgenda),
      ("event_type_index", toJson c.indexTypes), ("compiled_paths", toJson c.useRays),
      ("seed", toJson c.seed)]
  ofJson? document := do
    let standard : Config := {}
    let names :=
      ["conflict_resolution", "decision_plan", "event_type_index", "compiled_paths", "seed"]
    match ← document.partialFields? names with
    | [strategy, useAgenda, indexTypes, useRays, seed] =>
      return ⟨← Json.defaulted? standard.strategy strategy,
        ← Json.defaulted? standard.useAgenda useAgenda,
        ← Json.defaulted? standard.indexTypes indexTypes,
        ← Json.defaulted? standard.useRays useRays, ← Json.defaulted? standard.seed seed⟩
    | _ => none

instance : Binary Config where
  encode c :=
    encode c.strategy ++ encode c.useAgenda ++ encode c.indexTypes ++ encode c.useRays ++
      encode c.seed
  decode :=
    return ⟨← Binary.decode, ← Binary.decode, ← Binary.decode, ← Binary.decode, ← Binary.decode⟩

end BoardGame
