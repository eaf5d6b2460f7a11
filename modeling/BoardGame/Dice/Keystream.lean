/-!
A keyed stream of 32-bit words. A seed of 64 bits is expanded to a key of eight words by a linear
congruential generator with permuted output; the stream is the sequence of blocks of sixteen words
that eight rounds of quarter-round mixing make of the key and a 64-bit block number.
-/

namespace BoardGame.Keystream

def rotateLeft (x : UInt32) (n : UInt32) : UInt32 := (x <<< n) ||| (x >>> (32 - n))

/-- One step of the generator that expands a seed. -/
def advanceSeed (s : UInt64) : UInt64 := s * 6364136223846793005 + 11634580027462260723

/-- The output for a generator state: its high bits, rotated right by its five highest. -/
def permuted (s : UInt64) : UInt32 :=
  let x := ((((s >>> 18) ^^^ s) >>> 27)).toUInt32
  let n := (s >>> 59).toUInt32
  (x >>> n) ||| (x <<< ((32 - n) % 32))

def keyWords : Nat → UInt64 → List UInt32
  | 0, _ => []
  | n + 1, s => permuted (advanceSeed s) :: keyWords n (advanceSeed s)

def key (seed : UInt64) : List UInt32 := keyWords 8 seed

abbrev Block := Vector UInt32 16

/-- The text "expand 32-byte k", the key, the block number (low word first) and two zero words. -/
def start (key : List UInt32) (number : UInt64) : Block :=
  let k := fun i => key.getD i 0
  #v[0x61707865, 0x3320646e, 0x79622d32, 0x6b206574,
    k 0, k 1, k 2, k 3, k 4, k 5, k 6, k 7,
    number.toUInt32, (number >>> 32).toUInt32, 0, 0]

def quarterRound (a b c d : Fin 16) (s : Block) : Block :=
  let s := s.set a (s[a] + s[b])
  let s := s.set d (rotateLeft (s[d] ^^^ s[a]) 16)
  let s := s.set c (s[c] + s[d])
  let s := s.set b (rotateLeft (s[b] ^^^ s[c]) 12)
  let s := s.set a (s[a] + s[b])
  let s := s.set d (rotateLeft (s[d] ^^^ s[a]) 8)
  let s := s.set c (s[c] + s[d])
  s.set b (rotateLeft (s[b] ^^^ s[c]) 7)

/-- A round on the columns, then a round on the diagonals. -/
def doubleRound (s : Block) : Block :=
  let s := quarterRound 0 4 8 12 s
  let s := quarterRound 1 5 9 13 s
  let s := quarterRound 2 6 10 14 s
  let s := quarterRound 3 7 11 15 s
  let s := quarterRound 0 5 10 15 s
  let s := quarterRound 1 6 11 12 s
  let s := quarterRound 2 7 8 13 s
  quarterRound 3 4 9 14 s

def block (key : List UInt32) (number : UInt64) : Block :=
  let s := start key number
  let mixed := doubleRound (doubleRound (doubleRound (doubleRound s)))
  Vector.zipWith (· + ·) mixed s

def word (seed : UInt64) (position : Nat) : UInt32 :=
  (block (key seed) (UInt64.ofNat (position / 16))).get ⟨position % 16, Nat.mod_lt _ (by decide)⟩

end BoardGame.Keystream
