import BoardGame.Artifact
import BoardGame.Value.Forms

/-!
The status of a single artifact: a piece on a tile, the face a die shows, whether a player is to act,
a captured piece, or a payload that a game defines. An artifact has at most one status of each aspect.
-/

namespace BoardGame

/-- Which question about an artifact a status answers. -/
inductive Aspect where
  | piece
  | dice
  | activePlayer
  | captured
  | custom (name : String)
  deriving DecidableEq, Repr

namespace Aspect

def rank : Aspect → Nat × String
  | piece => (0, "")
  | dice => (1, "")
  | activePlayer => (2, "")
  | captured => (3, "")
  | custom name => (4, name)

theorem rank_injective (a b : Aspect) (h : rank a = rank b) : a = b := by
  cases a <;> cases b <;> simp [rank] at h <;> first | rfl | rw [h]

/-- Aspects come in the order of their declaration, those that games define by name. -/
instance : KeyOrder Aspect := KeyOrder.along rank rank_injective

def inspect : Aspect → String
  | piece => "Piece"
  | dice => "Dice"
  | activePlayer => "ActivePlayer"
  | captured => "Captured"
  | custom name => Inspect.tuple "Custom" [Text.quoted name]

end Aspect

inductive Status where
  | piece (piece tile : ArtifactId)
  | dice (dice : ArtifactId) (face : Option Int64)
  | activePlayer (player : ArtifactId) (active : Bool)
  | captured (piece : ArtifactId)
  | custom (artifact : ArtifactId) (name : String) (value : Value)
  deriving DecidableEq

namespace Status

instance : Inhabited Status := ⟨captured ""⟩

def artifact : Status → ArtifactId
  | .piece id _ => id
  | .dice id _ => id
  | .activePlayer id _ => id
  | .captured id => id
  | .custom id _ _ => id

def aspect : Status → Aspect
  | .piece .. => .piece
  | .dice .. => .dice
  | .activePlayer .. => .activePlayer
  | .captured _ => .captured
  | .custom _ name _ => .custom name

def key (s : Status) : ArtifactId × Aspect := (s.artifact, s.aspect)

end Status

instance : JsonForm Aspect where
  toJson
    | .piece => .text "Piece"
    | .dice => .text "Dice"
    | .activePlayer => .text "ActivePlayer"
    | .captured => .text "Captured"
    | .custom name => .tagged "Custom" (toJson name)
  ofJson? document :=
    match document.case? with
    | some ("Custom", some carried) => (ofJson? carried).map .custom
    | _ => document.ofTable?
      [("Piece", .piece), ("Dice", .dice), ("ActivePlayer", .activePlayer), ("Captured", .captured)]

/-- A case and its name, if it has one. -/
instance : Footprint Aspect := ⟨24⟩

/-- A status in a map is held as a place. -/
instance : Footprint Status := ⟨8⟩

instance : Binary Aspect where
  encode
    | .piece => Binary.encodeCase 0
    | .dice => Binary.encodeCase 1
    | .activePlayer => Binary.encodeCase 2
    | .captured => Binary.encodeCase 3
    | .custom name => Binary.encodeCase 4 ++ encode name
  decode := do
    match ← Binary.decodeCase with
    | 0 => return .piece
    | 1 => return .dice
    | 2 => return .activePlayer
    | 3 => return .captured
    | 4 => return .custom (← Binary.decode)
    | _ => Binary.fail .badCase

instance : Digestible Aspect where
  absorb h
    | .piece => Digest.caseOf h 0
    | .dice => Digest.caseOf h 1
    | .activePlayer => Digest.caseOf h 2
    | .captured => Digest.caseOf h 3
    | .custom name => absorb (Digest.caseOf h 4) name

instance : JsonForm Status where
  toJson
    | .piece piece tile =>
      .tagged "Piece" (.object [("piece", toJson piece), ("tile", toJson tile)])
    | .dice dice face => .tagged "Dice" (.object [("dice", toJson dice), ("value", toJson face)])
    | .activePlayer player active =>
      .tagged "ActivePlayer" (.object [("player", toJson player), ("active", toJson active)])
    | .captured piece => .tagged "Captured" (.object [("piece", toJson piece)])
    | .custom artifact name value =>
      .tagged "Custom"
        (.object [("artifact", toJson artifact), ("kind", toJson name), ("value", toJson value)])
  ofJson? document := do
    match ← document.case? with
    | ("Piece", some carried) =>
      match ← carried.named? ["piece", "tile"] with
      | [piece, tile] => return .piece (← Json.required? piece) (← Json.required? tile)
      | _ => none
    | ("Dice", some carried) =>
      match ← carried.named? ["dice", "value"] with
      | [dice, face] => return .dice (← Json.required? dice) (← Json.defaulted? none face)
      | _ => none
    | ("ActivePlayer", some carried) =>
      match ← carried.named? ["player", "active"] with
      | [player, active] =>
        return .activePlayer (← Json.required? player) (← Json.required? active)
      | _ => none
    | ("Captured", some carried) =>
      match ← carried.named? ["piece"] with
      | [piece] => return .captured (← Json.required? piece)
      | _ => none
    | ("Custom", some carried) =>
      match ← carried.named? ["artifact", "kind", "value"] with
      | [artifact, name, value] =>
        return .custom (← Json.required? artifact) (← Json.required? name) (← Json.required? value)
      | _ => none
    | _ => none

instance : Binary Status where
  encode
    | .piece piece tile => Binary.encodeCase 0 ++ encode piece ++ encode tile
    | .dice dice face => Binary.encodeCase 1 ++ encode dice ++ encode face
    | .activePlayer player active => Binary.encodeCase 2 ++ encode player ++ encode active
    | .captured piece => Binary.encodeCase 3 ++ encode piece
    | .custom artifact name value =>
      Binary.encodeCase 4 ++ encode artifact ++ encode name ++ encode value
  decode := do
    match ← Binary.decodeCase with
    | 0 => return .piece (← Binary.decode) (← Binary.decode)
    | 1 => return .dice (← Binary.decode) (← Binary.decode)
    | 2 => return .activePlayer (← Binary.decode) (← Binary.decode)
    | 3 => return .captured (← Binary.decode)
    | 4 => return .custom (← Binary.decode) (← Binary.decode) (← Binary.decode)
    | _ => Binary.fail .badCase

instance : Digestible Status where
  absorb h
    | .piece piece tile => absorb (absorb (Digest.caseOf h 0) piece) tile
    | .dice dice face => absorb (absorb (Digest.caseOf h 1) dice) face
    | .activePlayer player active => absorb (absorb (Digest.caseOf h 2) player) active
    | .captured piece => absorb (Digest.caseOf h 3) piece
    | .custom artifact name value =>
      absorb (absorb (absorb (Digest.caseOf h 4) artifact) name) value

end BoardGame
