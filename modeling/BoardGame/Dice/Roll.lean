import BoardGame.Dice.Keystream
import BoardGame.Digest
import BoardGame.Json

/-!
Dice rolls from a keyed stream. A roll is a function of the seed and of the position in the stream, so
storing both makes every roll repeatable. Fair faces come from rejecting words: a word is scaled to the
number of faces and used only when the fraction lost is below a bound that depends on that number alone.
Storing a stream and resuming it changes nothing, and every face drawn is one of the die's.
-/

namespace BoardGame

/-- What a snapshot keeps of its dice stream. -/
structure RollState where
  seed : UInt64 := 0
  position : BitVec 128 := 0
  deriving DecidableEq, Repr

/-- A stream at one of its positions; there are 2^68 of them, after which the stream repeats. -/
structure RollStream where
  seed : UInt64
  position : BitVec 68
  deriving DecidableEq, Repr

namespace RollStream

def ofSeed (seed : UInt64) : RollStream := ⟨seed, 0⟩

/-- Resuming a stored position drops what exceeds the stream. -/
def resume (s : RollState) : RollStream := ⟨s.seed, s.position.setWidth 68⟩

def state (r : RollStream) : RollState := ⟨r.seed, r.position.setWidth 128⟩

def nextWord (r : RollStream) : UInt32 × RollStream :=
  (Keystream.word r.seed r.position.toNat, ⟨r.seed, r.position + 1⟩)

/-- The largest lost fraction with which a word is still used. -/
def zone (faces : Nat) : Nat := (faces <<< (31 - Nat.log2 faces)) - 1

/-- Draws words until one is usable, at most the given number of them. -/
def seek (faces : Nat) : Nat → RollStream → Nat × RollStream
  | 0, r => (1, r)
  | draws + 1, r =>
    let (w, r) := r.nextWord
    let scaled := w.toNat * faces
    if scaled % UInt32.size ≤ zone faces then (1 + scaled / UInt32.size, r) else seek faces draws r

/-- A roll between one and the number of faces; a die without faces shows zero and draws nothing.
All 2^68 positions are tried before giving up, since a word that fails once fails always. -/
def roll (r : RollStream) (faces : UInt32) : Int64 × RollStream :=
  if faces = 0 then (0, r)
  else
    let (face, r) := seek faces.toNat (1 <<< 68) r
    (Int64.ofNat face, r)

end RollStream

def RollState.seeded (seed : UInt64) : RollState := (RollStream.ofSeed seed).state

instance : JsonForm RollState where
  toJson s := .object [("seed", toJson s.seed), ("word_pos", toJson s.position)]
  ofJson? document := do
    match ← document.fields? ["seed", "word_pos"] with
    | [seed, position] => return ⟨← Json.required? seed, ← Json.required? position⟩
    | _ => none

instance : Binary RollState where
  encode s := encode s.seed ++ encode s.position
  decode := return ⟨← Binary.decode, ← Binary.decode⟩

instance : Digestible RollState := ⟨fun h s => absorb (absorb h s.seed) s.position⟩

end BoardGame
