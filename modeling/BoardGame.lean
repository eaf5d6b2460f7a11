import BoardGame.Effect.Ready
import BoardGame.Guard.Ready
import BoardGame.Proofs.Board.Walk
import BoardGame.Proofs.Effect.Capture
import BoardGame.Proofs.Effect.Rolls
import BoardGame.Proofs.Engine.Acceleration
import BoardGame.Proofs.Engine.Assembly
import BoardGame.Proofs.Engine.Completion
import BoardGame.Proofs.Engine.Conservation
import BoardGame.Proofs.Engine.Exclusion
import BoardGame.Proofs.Engine.Legality
import BoardGame.Proofs.Engine.Rearrangement
import BoardGame.Proofs.Engine.Replay
import BoardGame.Proofs.Engine.Rotation
import BoardGame.Proofs.Engine.Skipping
import BoardGame.Proofs.Engine.Trace
import BoardGame.Proofs.Engine.TreeWalk
import BoardGame.Proofs.Engine.Turn
import BoardGame.Proofs.Guard.Asking
import BoardGame.Proofs.Guard.Flattening
import BoardGame.Proofs.Phase.Cursor
import BoardGame.Proofs.Rule.Acceptance
import BoardGame.Proofs.Rule.Selection
import BoardGame.Proofs.Setup.Acceptance
import BoardGame.Proofs.Setup.Freezing
import BoardGame.Proofs.Setup.Layout
import BoardGame.Proofs.Setup.Requirements
import BoardGame.Proofs.Snapshot.Canonical
import BoardGame.Proofs.Snapshot.Indexes
import BoardGame.Proofs.Snapshot.RoundTrip
import BoardGame.Text.Hexadecimal
