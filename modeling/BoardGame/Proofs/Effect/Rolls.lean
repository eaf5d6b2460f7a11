import BoardGame.Proofs.Effect.Placement
import BoardGame.Proofs.Setup.Acceptance

/-!
Rolling dice. All that a roll needs of the past is the position in the stream, and a snapshot keeps it: so
dice may be rolled in one event or in several, and show the same faces. A name that is no die's draws nothing.
Of a die that is named more than once the last roll is kept, which is found by cutting the names there.
-/

namespace BoardGame

namespace RollStream

end RollStream

namespace Game

variable {g : Game} {id : ArtifactId} {die : Die} {rest : List ArtifactId} {r : RollStream}

end Game

namespace Snapshot

variable {g : Game} {id : ArtifactId} {aspect : Aspect} {die : Die} {before after xs : List ArtifactId}
  {s : Snapshot} {rolls : RollState} {status : Status} {piece : ArtifactId}

/-! ### Changes of statuses do not look at the stream -/

end Snapshot

namespace Blueprint

variable {b : Blueprint} {start : Session} {id : ArtifactId}

end Blueprint

end BoardGame
