import BoardGame.Sorted.Map

/-!
The binary form of values: fixed-width little-endian words, texts and lists after their length in
eight bytes, sums after the position of their case in four bytes, maps and sets as the list of their
entries in key order. A decoder takes a value from the front of its input and leaves the rest.

Room for all entries of a map or set is laid out before the first of them is read. So one that announces
more entries than any memory has room for is refused at once, whatever follows.
-/

namespace BoardGame

abbrev Bytes := List UInt8

/-- Why bytes could not be read; the first reason met in reading order counts. -/
inductive DecodeError where
  | endOfInput
  | badText
  | badBool
  | badOption
  | badCase
  /-- No memory has room for the entries that a map or set announces. -/
  | tooLarge
  deriving DecidableEq, Repr

abbrev Decoder (α : Type) := StateT Bytes (Except DecodeError) α

class Binary (α : Type) where
  encode : α → Bytes
  decode : Decoder α

export Binary (encode)

/-- How many bytes a value takes as part of an entry of a map, without what it refers to. -/
class Footprint (α : Type) where
  size : Nat

namespace Binary

def fail {α : Type} (e : DecodeError) : Decoder α := fun _ => .error e

/-- The lowest `width` bytes of a number, lowest first. -/
def littleEndian : Nat → Nat → Bytes
  | 0, _ => []
  | width + 1, n => UInt8.ofNat (n % 256) :: littleEndian width (n / 256)

def ofLittleEndian : Bytes → Nat
  | [] => 0
  | b :: rest => b.toNat + 256 * ofLittleEndian rest

def decodeByte : Decoder UInt8
  | [] => .error .endOfInput
  | b :: rest => .ok (b, rest)

def decodeWord : Nat → Decoder Nat
  | 0 => pure 0
  | width + 1 => do
    let low ← decodeByte
    let high ← decodeWord width
    return low.toNat + 256 * high

/-- The next `n` bytes, all or none. -/
def takeBytes (n : Nat) : Decoder Bytes := fun input =>
  if input.length < n then .error .endOfInput else .ok (input.take n, input.drop n)

def encodeLength (n : Nat) : Bytes := littleEndian 8 n
def decodeLength : Decoder Nat := decodeWord 8

def encodeCase (n : Nat) : Bytes := littleEndian 4 n
def decodeCase : Decoder Nat := decodeWord 4

def decodeMany {α : Type} (item : Decoder α) : Nat → Decoder (List α)
  | 0 => pure []
  | n + 1 => do
    let x ← item
    let rest ← decodeMany item n
    return x :: rest

/-- Refuses a number of entries that memory, of 2^63 bytes at most, has no room for. Entries that are all
there in the input have room. -/
def checkRoom (entries size : Nat) : Decoder Unit := fun input =>
  if input.length < entries ∧ 1 <<< 63 ≤ entries * size then .error .tooLarge else .ok ((), input)

/-- As many entries of the given size as are announced. -/
def decodeEntries {α : Type} (entry : Decoder α) (size : Nat) : Decoder (List α) := do
  let n ← decodeLength
  checkRoom n size
  decodeMany entry n

/-- One of finitely many cases without contents, by position. -/
def decodeTable {α : Type} (table : List α) : Decoder α := do
  let n ← decodeCase
  match table[n]? with
  | some x => pure x
  | none => fail .badCase

end Binary

open Binary

instance : Binary Unit := ⟨fun _ => [], pure ()⟩

instance : Binary UInt32 where
  encode n := littleEndian 4 n.toNat
  decode := return UInt32.ofNat (← decodeWord 4)

instance : Binary UInt64 where
  encode n := littleEndian 8 n.toNat
  decode := return UInt64.ofNat (← decodeWord 8)

instance : Binary Int64 where
  encode n := littleEndian 8 n.toUInt64.toNat
  decode := return (UInt64.ofNat (← decodeWord 8)).toInt64

instance : Binary (BitVec 128) where
  encode n := littleEndian 16 n.toNat
  decode := return BitVec.ofNat 128 (← decodeWord 16)

/-- Counts and positions are written in 64 bits. -/
instance : Binary Nat := ⟨littleEndian 8, decodeWord 8⟩

instance : Binary Bool where
  encode b := [if b then 1 else 0]
  decode := do
    let b ← decodeByte
    if b = 0 then pure false
    else if b = 1 then pure true
    else fail .badBool

instance : Binary String where
  encode s := encodeLength s.toUTF8.size ++ s.toUTF8.toList
  decode := do
    let n ← decodeLength
    let bytes ← takeBytes n
    match String.fromUTF8? ⟨bytes.toArray⟩ with
    | some s => pure s
    | none => fail .badText

instance {α : Type} [Binary α] : Binary (Option α) where
  encode
    | none => [0]
    | some x => 1 :: encode x
  decode := do
    let b ← decodeByte
    if b = 0 then pure none
    else if b = 1 then return some (← Binary.decode)
    else fail .badOption

instance {α : Type} [Binary α] : Binary (List α) where
  encode items := encodeLength items.length ++ items.flatMap encode
  decode := do
    let n ← decodeLength
    decodeMany Binary.decode n

instance {α β : Type} [Binary α] [Binary β] : Binary (α × β) where
  encode p := encode p.1 ++ encode p.2
  decode := do
    let x ← Binary.decode
    let y ← Binary.decode
    return (x, y)

instance : Footprint Unit := ⟨0⟩

/-- A text is held as a place and a length. -/
instance : Footprint String := ⟨16⟩

instance {α β : Type} [Footprint α] [Footprint β] : Footprint (α × β) :=
  ⟨Footprint.size α + Footprint.size β⟩

/-- A map is held as a place and a count. -/
instance {κ α : Type} [KeyOrder κ] : Footprint (SortedMap κ α) := ⟨16⟩

/-- Entries read are written into the map in their order, so a later one wins. -/
instance {κ α : Type} [KeyOrder κ] [Binary κ] [Binary α] [Footprint κ] [Footprint α] :
    Binary (SortedMap κ α) where
  encode m := encode m.entries
  decode := return SortedMap.ofList (← decodeEntries Binary.decode (Footprint.size (κ × α)))

end BoardGame
